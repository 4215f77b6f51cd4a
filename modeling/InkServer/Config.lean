import InkServer.Compiler.Timeout
import InkServer.FileSystem.Access
import InkServer.Schema
import InkServer.Yaml

/-!
# Server configuration

A YAML file may name the compiler and say where mirrors go. `load` finds the file, fills in what it leaves
out and checks the result, which is a configuration that keeps to the schema. A file that somebody asked
for has to exist; the usual one may be missing.
-/

namespace InkServer

/-- A configuration as a mapping of sections. -/
structure Config where
  entries : List (Value × Value)
  deriving Inhabited

namespace Config

/-- What a configuration must look like. -/
def schema : Schema :=
  .rules [.kinds [.object],
    .required ["inkls", "compiler", "mirror"],
    .noOthers ["inkls", "compiler", "mirror"],
    .fields [
      ("inkls", .rules [.kinds [.integer], .oneOf [1]]),
      ("compiler", .rules [.kinds [.object],
        .noOthers ["executable", "launcher", "timeout"],
        .fields [
          ("executable", .rules [.kinds [.string, .null]]),
          ("launcher", .rules [.kinds [.array], .items (.rules [.kinds [.string]])]),
          ("timeout", .rules [.kinds [.number], .positive])]]),
      ("mirror", .rules [.kinds [.object],
        .noOthers ["temp_root", "extensions"],
        .fields [
          ("temp_root", .rules [.kinds [.string, .null]]),
          ("extensions", .rules [.kinds [.array], .nonEmpty,
            .items (.rules [.kinds [.string], .dotted])])]])]]

def toValue (c : Config) : Value := .map c.entries

/-- Why a section cannot be read as a mapping. -/
inductive SectionError where
  /-- A single value that has no parts. -/
  | notIterable (kind : String)
  /-- A part that is no pair. -/
  | wrongLength (index length : Nat)
  /-- A part that has no parts of its own. -/
  | notPair (index : Nat)
  /-- A key that is a list or a mapping. -/
  | unhashable (kind : String)
  deriving DecidableEq, Repr

def SectionError.message : SectionError → String
  | .notIterable kind => s!"'{kind}' object is not iterable"
  | .wrongLength index length =>
    s!"dictionary update sequence element #{index} has length {length}; 2 is required"
  | .notPair index => s!"cannot convert dictionary update sequence element #{index} to a sequence"
  | .unhashable kind => s!"unhashable type: '{kind}'"

/-- How bytes that are no text are told. -/
def encodingMessage (i : Text.Utf8.Invalid) : String :=
  let where_ :=
    if i.length = 1 then
      s!"byte 0x{String.ofList (Text.hexDigits 2 i.byte)} in position {i.position}"
    else s!"bytes in position {i.position}-{i.position + i.length - 1}"
  "'utf-8' codec can't decode " ++ where_ ++ ": " ++ i.fault.text

/-- Why no configuration could be loaded. -/
inductive Error where
  /-- The file that was asked for is not there. -/
  | missing (path : Path)
  | file (error : FileError)
  /-- The file is no text. -/
  | encoding (bytes : Text.Utf8.Invalid)
  | yaml (error : Yaml.Error)
  /-- The document is no mapping. -/
  | notAMapping (path : Path)
  | section_ (error : SectionError)
  | invalid (violation : Violation)

def Error.message : Error → String
  | .missing path => "Ink language server config not found at " ++ path.text
  | .file e => e.message
  | .encoding bytes => encodingMessage bytes
  | .yaml e => e.message
  | .notAMapping path => "Invalid server config: expected a mapping in " ++ path.text
  | .section_ e => e.message
  | .invalid v => "Invalid server config: " ++ v.message

/-! ## Sections -/

/-- The parts of a value, if it has any. -/
def parts? : Value → Option (List Value)
  | .str s => some (s.toList.map fun c => .str (String.ofList [c]))
  | .list items => some items
  | .map entries => some (entries.map Prod.fst)
  | _ => none

/-- Reads pairs into the entries of a mapping. -/
def entriesOfPairs (index : Nat) (entries : List (Value × Value)) :
    List Value → Except SectionError (List (Value × Value))
  | [] => .ok entries
  | v :: rest =>
    match parts? v with
    | none => .error (.notPair index)
    | some [key, value] =>
      if Yaml.isHashable key then entriesOfPairs (index + 1) (Value.putEntry key value entries) rest
      else .error (.unhashable key.kindName)
    | some ps => .error (.wrongLength index ps.length)

/-- The entries of a section: a mapping, or the pairs that make one. What counts as absent has none. -/
def sectionEntries (v : Value) : Except SectionError (List (Value × Value)) :=
  if v.isTruthy then
    match v with
    | .map entries => .ok entries
    | v =>
      match parts? v with
      | some ps => entriesOfPairs 0 [] ps
      | none => .error (.notIterable v.kindName)
  else .ok []

/-- Gives a key a value unless it has one. -/
def withDefault (key : String) (value : Value) (entries : List (Value × Value)) :
    List (Value × Value) :=
  if (Value.entryFor? key entries).isSome then entries else Value.putField key value entries

/-- Gives a key a value unless it has one that is not `null`. -/
def withDefaultForNull (key : String) (value : Value) (entries : List (Value × Value)) :
    List (Value × Value) :=
  if ((Value.entryFor? key entries).getD .null).isNull then Value.putField key value entries else entries

/-- Gives a key a value unless it has one that counts as present. -/
def withDefaultForAbsent (key : String) (value : Value) (entries : List (Value × Value)) :
    List (Value × Value) :=
  if ((Value.entryFor? key entries).getD .null).isTruthy then entries else Value.putField key value entries

/-- Where mirrored files end if nothing else is said. -/
def defaultExtensions : List String := [".ink"]

def fillCompiler (entries : List (Value × Value)) : List (Value × Value) :=
  withDefaultForNull "timeout" Seconds.default.toValue
    (withDefaultForNull "launcher" (.list []) (withDefault "executable" .null entries))

def fillMirror (entries : List (Value × Value)) : List (Value × Value) :=
  withDefaultForAbsent "extensions" (.texts defaultExtensions) (withDefault "temp_root" .null entries)

/-- Fills in everything that a configuration leaves out. -/
def fill (entries : List (Value × Value)) : Except SectionError Config := do
  let entries := withDefault "inkls" (.int 1) entries
  let compiler ← sectionEntries ((Value.map entries).field "compiler")
  let entries := Value.putField "compiler" (.map (fillCompiler compiler)) entries
  let mirror ← sectionEntries ((Value.map entries).field "mirror")
  pure ⟨Value.putField "mirror" (.map (fillMirror mirror)) entries⟩

/-- The configuration that holds where no file says anything. -/
def defaults : Config :=
  ⟨[(.str "inkls", .int 1),
    (.str "compiler", .map (fillCompiler [])),
    (.str "mirror", .map (fillMirror []))]⟩

/-- Gives entries of a section other values. -/
def update (c : Config) (section_ : String) (given : List (Value × Value)) : Config :=
  let entries := ((c.toValue.field section_).entries?).getD []
  ⟨Value.putField section_ (.map (given.foldl (fun es e => Value.putEntry e.1 e.2 es) entries)) c.entries⟩

/-- Fills in and checks a document. -/
def ofDocument (path : Path) (document : Value) : Except Error Config := do
  let document := if document.isTruthy then document else .map []
  let .map entries := document | throw (.notAMapping path)
  let config ← (fill entries).mapError .section_
  match schema.check config.toValue with
  | none => pure config
  | some violation => throw (.invalid violation)

/-! ## Loading -/

/-- Where a configuration may be named: on the command line, in the environment, or in the home
directory. -/
structure Sources where
  argument : Option String := none
  environment : Option String := none
  home : Path

/-- The file to load, and whether somebody asked for it. -/
def Sources.file (s : Sources) : Path × Bool :=
  match s.argument, s.environment with
  | some p, _ => (.ofText p, true)
  | none, some p => (.ofText p, true)
  | none, none => (s.home.child ".inkls/config.yml", false)

/-- What is noted about the usual file when it is missing. -/
def missingNote (path : Path) : String :=
  s!"Ink language server config not found at {path.text}, using defaults"

/-- Does work on files as part of loading. -/
def onFiles {α : Type} (work : FileWork α) : ExceptT Error (StateM FileSystem) α := do
  match ← (FileWork.attempt work).run with
  | .ok (.ok a) => pure a
  | .ok (.error e) => throw (.file e)
  | .error e => throw (.file e)

/-- The document that the bytes of a file hold. -/
def documentOfBytes (content : ByteArray) : Except Error Value := do
  if let some bytes := Text.Utf8.firstInvalid? content then throw (.encoding bytes)
  let text := String.ofList (Text.unifyNewlines (Text.Utf8.decode content).toList)
  (Yaml.parse text).mapError .yaml

/-- Loads the configuration from a file whose document is read by `read`, and says what is to be noted. -/
def loadBy (read : ByteArray → Except Error Value) (sources : Sources) :
    ExceptT Error (StateM FileSystem) (Config × Option String) := do
  let (path, asked) := sources.file
  if ← onFiles (FileWork.existsAt path) then
    let content ← onFiles (FileWork.read path)
    let document ← liftExcept (read content)
    let config ← liftExcept (ofDocument path document)
    pure (config, none)
  else if asked then throw (.missing path)
  else
    let config ← liftExcept (ofDocument path (.map []))
    pure (config, some (missingNote path))
where
  liftExcept {α : Type} (r : Except Error α) : ExceptT Error (StateM FileSystem) α :=
    match r with
    | .ok a => pure a
    | .error e => throw e

/-- Loads the configuration, and says what is to be noted. -/
def load (sources : Sources) : ExceptT Error (StateM FileSystem) (Config × Option String) :=
  loadBy documentOfBytes sources

end Config

end InkServer
