import InkServer.Schema

/-!
# Settings of a document

What the client configures under the section `ink`. Answers of the client are merged over the defaults
and checked: `normalize` yields settings that keep to the schema whatever mapping it is given, so that the
rest of the server never meets half-valid ones. Keys that nobody here knows are kept.
-/

namespace InkServer

/-- Settings as they were given, from key to value. -/
structure Settings where
  fields : Dict String Value
  deriving Repr

namespace Settings

/-- The section of the client's configuration that holds the settings. -/
def configurationSection : String := "ink"

def mainStoryKey : String := "mainStoryPath"

def executableKey : String := "inklecateExecutablePath"

def monoKey : String := "runThroughMono"

/-- The settings that hold where the client says nothing. -/
def defaults : Settings :=
  ⟨⟨[(mainStoryKey, .str "main.ink"), (executableKey, .null), (monoKey, .bool false)]⟩⟩

instance : Inhabited Settings := ⟨defaults⟩

/-- What settings must look like. -/
def schema : Schema :=
  .rules [.kinds [.object],
    .required [mainStoryKey, executableKey, monoKey],
    .fields [(mainStoryKey, .rules [.kinds [.string], .nonEmpty]),
      (executableKey, .rules [.kinds [.string, .null]]),
      (monoKey, .rules [.kinds [.boolean]])]]

/-- Settings as one value. -/
def toValue (s : Settings) : Value := .object s.fields.entries

/-- The settings of the text keys of a mapping; a key that comes twice has its last value. -/
def ofEntries (entries : List (Value × Value)) : Settings :=
  ⟨.ofList (entries.filterMap fun (k, v) => k.text?.map fun k => (k, v))⟩

/-- How settings depart from the schema, if they do. -/
def check (s : Settings) : Option Violation := schema.check s.toValue

/-- Overrides settings by the values that are not `null`. -/
def override (s : Settings) (given : Dict String Value) : Settings :=
  ⟨given.entries.foldl (fun d e => if e.2.isNull then d else d.insert e.1 e.2) s.fields⟩

/-- What becomes of an answer of the client: settings, and the reason why the answer was left aside if it
was. -/
structure Normalized where
  settings : Settings
  ignored : Option Violation := none

/-- Merges a mapping over the defaults; the defaults alone hold if the result breaks the schema. -/
def merge (given : Dict String Value) : Normalized :=
  let merged := defaults.override given
  match merged.check with
  | none => ⟨merged, none⟩
  | some violation => ⟨defaults, some violation⟩

/-- An answer that is no mapping. -/
structure NotAMapping where
  kind : String
  deriving DecidableEq, Repr

def NotAMapping.message (e : NotAMapping) : String := s!"'{e.kind}' object has no attribute 'items'"

/-- Settings of an answer of the client. An answer that counts as absent leaves the defaults. -/
def normalize (answer : Value) : Except NotAMapping Normalized :=
  if answer.isTruthy then
    match answer with
    | .map entries => .ok (merge (ofEntries entries).fields)
    | v => .error ⟨v.kindName⟩
  else .ok (merge {})

/-- What is noted about an answer that was left aside. -/
def ignoredNote (v : Violation) : String :=
  "Ignoring invalid ink settings (" ++ v.message ++ "), using defaults"

/-! ## Single settings -/

def get? (s : Settings) (key : String) : Option Value := s.fields.get? key

/-- The executable that the settings name, if they name one. -/
def executable? (s : Settings) : Option Value := (s.get? executableKey).filter Value.isTruthy

/-- Whether the compiler is to be run through its launcher. -/
def runsThroughMono (s : Settings) : Bool := (s.get? monoKey).any Value.isTruthy

/-- Why settings that were never normalized name no main story. -/
inductive StoryError where
  | missing
  | notText (kind : String)
  deriving DecidableEq, Repr

def StoryError.message : StoryError → String
  | .missing => Text.quoted mainStoryKey
  | .notText kind => s!"expected str, bytes or os.PathLike object, not {kind}"

/-- The entry file of a story. -/
def mainStory (s : Settings) : Except StoryError String :=
  match s.get? mainStoryKey with
  | none => .error .missing
  | some (.str path) => .ok path
  | some v => .error (.notText v.kindName)

end Settings

end InkServer
