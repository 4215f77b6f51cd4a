import InkServer.Yaml.Token
import InkServer.Yaml.Meaning

/-!
# YAML documents

Reading a YAML document as a dynamic value. Tokens form nodes, an alias stands for the node of its anchor,
and a node gets its meaning from its tag or, if it is plain, from its text.
-/

namespace InkServer.Yaml

/-- What starts every tag of YAML itself. -/
def coreTag (name : String) : String := "tag:yaml.org,2002:" ++ name

/-- A node of a document with its tag. -/
inductive Node where
  | scalar (tag : String) (text : String)
  | sequence (tag : String) (items : List Node)
  | mapping (tag : String) (pairs : List (Node × Node))
  deriving Inhabited

def ScalarSort.tag : ScalarSort → String
  | .bool => coreTag "bool"
  | .float => coreTag "float"
  | .int => coreTag "int"
  | .merge => coreTag "merge"
  | .null => coreTag "null"
  | .timestamp => coreTag "timestamp"
  | .value => coreTag "value"
  | .str => coreTag "str"

/-- Where the reading of nodes stands. -/
structure Composition where
  tokens : List Token
  failure : Option Error
  handles : Dict String String
  anchors : Dict String (Option Node) := {}

/-- A step of the reading of nodes. -/
abbrev Compose := StateT Composition (Except Error)

namespace Compose

/-- The next token, `none` at the end of the document. A document that cannot be read up to its end
fails where the reading of its tokens did. -/
def peek : Compose (Option Token) := do
  let s ← get
  match s.tokens with
  | t :: _ => pure (some t)
  | [] =>
    match s.failure with
    | some e => throw e
    | none => pure none

def skip : Compose Unit := modify fun s => { s with tokens := s.tokens.drop 1 }

/-- The node of an empty place. -/
def empty : Node := .scalar (coreTag "null") ""

/-- The whole tag that a written tag stands for. -/
def resolveTag (t : TagText) : Compose String := do
  match t.handle with
  | none => pure t.suffix
  | some handle =>
    match (← get).handles.get? handle with
    | some start => pure (start ++ t.suffix)
    | none => throw .parser

/-- The anchor and the tag before a node, in either order. -/
def properties : Compose (Option String × Option TagText) := do
  match ← peek with
  | some (.anchor a) =>
    skip
    match ← peek with
    | some (.tag t) =>
      skip
      pure (some a, some t)
    | _ => pure (some a, none)
  | some (.tag t) =>
    skip
    match ← peek with
    | some (.anchor a) =>
      skip
      pure (some a, some t)
    | _ => pure (none, some t)
  | _ => pure (none, none)

/-- Remembers an anchor; its node is not known until it has been read. -/
def declare (anchor : Option String) : Compose Unit := do
  match anchor with
  | none => pure ()
  | some a =>
    if (← get).anchors.contains a then throw .composer
    modify fun s => { s with anchors := s.anchors.insert a none }

def define (anchor : Option String) (n : Node) : Compose Node := do
  match anchor with
  | none => pure ()
  | some a => modify fun s => { s with anchors := s.anchors.insert a (some n) }
  pure n

/-- The tag of a collection or a scalar that has none of its own. -/
def tagOr (tag : Option String) (default : String) : String :=
  match tag with
  | some "!" => default
  | some t => t
  | none => default

mutual

/-- Reads a node. `block` says whether a block collection may start here, and `dashes` whether a sequence
may start without indentation. -/
def node : Nat → Bool → Bool → Compose Node
  | 0, _, _ => throw .parser
  | fuel + 1, block, dashes => do
    match ← peek with
    | some (.alias name) =>
      skip
      match (← get).anchors.get? name with
      | some (some n) => pure n
      | some none => throw .constructor
      | none => throw .composer
    | _ =>
      let (anchor, tagText) ← properties
      let tag ← tagText.mapM resolveTag
      match ← peek with
      | some (.scalar text plain) =>
        declare anchor
        skip
        let implicit := if (plain && tag.isNone) || tag == some "!" then (sortOf text).tag else coreTag "str"
        define anchor (.scalar (tagOr tag implicit) text)
      | some .flowSequence =>
        declare anchor
        skip
        let items ← flowItems fuel true []
        define anchor (.sequence (tagOr tag (coreTag "seq")) items)
      | some .flowMapping =>
        declare anchor
        skip
        let pairs ← flowPairs fuel true []
        define anchor (.mapping (tagOr tag (coreTag "map")) pairs)
      | t =>
        match t, block, dashes with
        | some .blockEntry, _, true =>
          declare anchor
          let items ← dashItems fuel []
          define anchor (.sequence (tagOr tag (coreTag "seq")) items)
        | some .blockSequence, true, _ =>
          declare anchor
          skip
          let items ← blockItems fuel []
          define anchor (.sequence (tagOr tag (coreTag "seq")) items)
        | some .blockMapping, true, _ =>
          declare anchor
          skip
          let pairs ← blockPairs fuel []
          define anchor (.mapping (tagOr tag (coreTag "map")) pairs)
        | _, _, _ =>
          if anchor.isNone && tag.isNone then throw .parser
          declare anchor
          define anchor (.scalar (tagOr tag (coreTag "null")) "")

/-- The items of an indented sequence. -/
def blockItems : Nat → List Node → Compose (List Node)
  | 0, _ => throw .parser
  | fuel + 1, seen => do
    match ← peek with
    | some .blockEntry =>
      skip
      match ← peek with
      | some .blockEntry | some .blockEnd => blockItems fuel (empty :: seen)
      | _ =>
        let n ← node fuel true false
        blockItems fuel (n :: seen)
    | some .blockEnd =>
      skip
      pure seen.reverse
    | _ => throw .parser

/-- The items of a sequence that is not indented further than the mapping around it. -/
def dashItems : Nat → List Node → Compose (List Node)
  | 0, _ => throw .parser
  | fuel + 1, seen => do
    match ← peek with
    | some .blockEntry =>
      skip
      match ← peek with
      | some .blockEntry | some .key | some .value | some .blockEnd => dashItems fuel (empty :: seen)
      | _ =>
        let n ← node fuel true false
        dashItems fuel (n :: seen)
    | _ => pure seen.reverse

/-- The pairs of an indented mapping. -/
def blockPairs : Nat → List (Node × Node) → Compose (List (Node × Node))
  | 0, _ => throw .parser
  | fuel + 1, seen => do
    match ← peek with
    | some .key =>
      skip
      let k ←
        match ← peek with
        | some .key | some .value | some .blockEnd => pure empty
        | _ => node fuel true true
      let v ← blockValue fuel
      blockPairs fuel ((k, v) :: seen)
    | some .value =>
      let v ← blockValue fuel
      blockPairs fuel ((empty, v) :: seen)
    | some .blockEnd =>
      skip
      pure seen.reverse
    | _ => throw .parser

/-- The value of a pair of an indented mapping. -/
def blockValue : Nat → Compose Node
  | 0 => throw .parser
  | fuel + 1 => do
    match ← peek with
    | some .value =>
      skip
      match ← peek with
      | some .key | some .value | some .blockEnd => pure empty
      | _ => node fuel true true
    | _ => pure empty

/-- The items of a sequence in brackets. -/
def flowItems : Nat → Bool → List Node → Compose (List Node)
  | 0, _, _ => throw .parser
  | fuel + 1, first, seen => do
    match ← peek with
    | some .flowSequenceEnd =>
      skip
      pure seen.reverse
    | t =>
      if !first then
        match t with
        | some .flowEntry => skip
        | _ => throw .parser
      match ← peek with
      | some .flowSequenceEnd =>
        skip
        pure seen.reverse
      | some .key =>
        skip
        let k ←
          match ← peek with
          | some .value | some .flowEntry | some .flowSequenceEnd => pure empty
          | _ => node fuel false false
        let v ← flowValue fuel
        flowItems fuel false (.mapping (coreTag "map") [(k, v)] :: seen)
      | _ =>
        let n ← node fuel false false
        flowItems fuel false (n :: seen)

/-- The pairs of a mapping in braces. -/
def flowPairs : Nat → Bool → List (Node × Node) → Compose (List (Node × Node))
  | 0, _, _ => throw .parser
  | fuel + 1, first, seen => do
    match ← peek with
    | some .flowMappingEnd =>
      skip
      pure seen.reverse
    | t =>
      if !first then
        match t with
        | some .flowEntry => skip
        | _ => throw .parser
      match ← peek with
      | some .flowMappingEnd =>
        skip
        pure seen.reverse
      | some .key =>
        skip
        let k ←
          match ← peek with
          | some .value | some .flowEntry | some .flowMappingEnd => pure empty
          | _ => node fuel false false
        let v ← flowValue fuel
        flowPairs fuel false ((k, v) :: seen)
      | _ =>
        let k ← node fuel false false
        flowPairs fuel false ((k, empty) :: seen)

/-- The value of a pair in brackets or braces. -/
def flowValue : Nat → Compose Node
  | 0 => throw .parser
  | fuel + 1 => do
    match ← peek with
    | some .value =>
      skip
      match ← peek with
      | some .flowEntry | some .flowSequenceEnd | some .flowMappingEnd => pure empty
      | _ => node fuel false false
    | _ => pure empty

end

/-! ## Documents -/

/-- The handles that need no directive. -/
def coreHandles : Dict String String := .ofList [("!", "!"), ("!!", coreTag "")]

/-- Reads the directives of a document; says whether there were any. -/
def directives : Nat → Bool → Dict String String → Compose (Dict String String)
  | 0, _, _ => throw .parser
  | fuel + 1, versioned, handles => do
    match ← peek with
    | some (.directive d) =>
      skip
      match d with
      | .version major =>
        if versioned || major ≠ 1 then throw .parser
        directives fuel true handles
      | .tag handle start =>
        if handles.contains handle then throw .parser
        directives fuel versioned (handles.insert handle start)
      | .unknown => directives fuel versioned handles
    | _ => pure handles

/-- Skips lines that end documents. -/
def skipEnds : Nat → Compose Unit
  | 0 => pure ()
  | fuel + 1 => do
    match ← peek with
    | some .documentEnd =>
      skip
      skipEnds fuel
    | _ => pure ()

/-- Reads the one document of a text; `none` if there is no document. -/
def document (fuel : Nat) : Compose (Option Node) := do
  let content : Compose Node := do
    match ← peek with
    | none | some (.directive _) | some .documentStart | some .documentEnd => pure empty
    | _ => node fuel true false
  let root? ←
    match ← peek with
    | none => pure none
    | some (.directive _) | some .documentStart | some .documentEnd => do
      skipEnds fuel
      match ← peek with
      | none => pure none
      | _ =>
        let handles ← directives fuel false {}
        match ← peek with
        | some .documentStart =>
          skip
          let missing := coreHandles.entries.filter fun e => !handles.contains e.1
          modify fun s => { s with handles := ⟨handles.entries ++ missing⟩ }
          pure (some (← content))
        | _ => throw .parser
    | _ => do
      modify fun s => { s with handles := coreHandles }
      pure (some (← node fuel true false))
  match root? with
  | none => pure none
  | some root =>
    skipEnds fuel
    match ← peek with
    | none => pure (some root)
    | some (.directive _) =>
      let _ ← directives fuel false {}
      match ← peek with
      | some .documentStart => throw .composer
      | _ => throw .parser
    | some .documentStart => throw .composer
    | some _ => throw .parser

end Compose

/-- The root node of a text. -/
def rootNode (s : String) : Except Error (Option Node) :=
  let (ts, failure) := tokens s.toList
  let fuel := 4 * ts.length + 8
  (Compose.document fuel |>.run ⟨ts, failure, {}, {}⟩).map Prod.fst

/-! ## Values of nodes -/

def isHashable : Value → Bool
  | .list _ => false
  | .map _ => false
  | _ => true

def Node.tag : Node → String
  | .scalar t _ => t
  | .sequence t _ => t
  | .mapping t _ => t

/-- The pairs of a mapping with merge keys replaced by what they bring in, which comes first. -/
def flatten : Nat → List (Node × Node) → Except Error (List (Node × Node))
  | 0, _ => .error .constructor
  | fuel + 1, pairs => do
    let merged ← (pairs.filter fun p => p.1.tag = coreTag "merge").mapM fun p => do
      match p.2 with
      | .mapping _ inner => flatten fuel inner
      | .sequence _ items =>
        let parts ← items.mapM fun n =>
          match n with
          | .mapping _ inner => flatten fuel inner
          | _ => .error .constructor
        pure parts.reverse.flatten
      | .scalar _ _ => .error .constructor
    let own := (pairs.filter fun p => p.1.tag ≠ coreTag "merge").map fun (k, v) =>
      match k with
      | .scalar t text => if t = coreTag "value" then (Node.scalar (coreTag "str") text, v) else (k, v)
      | _ => (k, v)
    pure (merged.flatten ++ own)

/-- The sort of scalar that a tag of YAML itself names. -/
def scalarSort? (tag : String) : Option ScalarSort :=
  [ScalarSort.bool, .float, .int, .null, .timestamp, .str].find? fun s => s.tag = tag

/-- The value of a node. -/
def Node.value : Nat → Node → Except Error Value
  | 0, _ => .error .constructor
  | _ + 1, .scalar tag text =>
    match scalarSort? tag with
    | some sort =>
      match sort.value? text with
      | some v => .ok v
      | none => .error (.scalar (sort.fault text))
    | none => .error .constructor
  | fuel + 1, .sequence tag items =>
    if tag = coreTag "seq" then (items.mapM (Node.value fuel)).map .list else .error .constructor
  | fuel + 1, .mapping tag pairs =>
    if tag = coreTag "map" then do
      let pairs ← flatten fuel pairs
      let entries ← pairs.foldlM (fun entries (k, v) => do
        let key ← Node.value fuel k
        if !isHashable key then throw .constructor
        let v ← Node.value fuel v
        pure (Value.putEntry key v entries)) []
      pure (.map entries)
    else .error .constructor

/-- How deep the nodes of a text can be nested at most. -/
def depthBound (s : String) : Nat := s.length + 4

/-- Reads a text that holds at most one document; an empty text is `null`. -/
def parse (s : String) : Except Error Value := do
  match ← rootNode s with
  | none => pure .null
  | some n => n.value (depthBound s)

end InkServer.Yaml
