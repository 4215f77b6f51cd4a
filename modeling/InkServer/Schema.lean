import InkServer.Value

/-!
# Schemas

What a value must look like: its kind, the fields of a mapping, the items of a list, bounds. `violations`
lists every place where a value departs from a schema, in the order of the schema's rules, and `worst?`
picks the one that is reported: the outermost, and of those the one whose place is last.
-/

namespace InkServer

/-- The kinds of values that a schema tells apart. -/
inductive Kind where
  | object
  | array
  | string
  | number
  | integer
  | boolean
  | null
  deriving DecidableEq, Repr

def Kind.name : Kind → String
  | .object => "object"
  | .array => "array"
  | .string => "string"
  | .number => "number"
  | .integer => "integer"
  | .boolean => "boolean"
  | .null => "null"

/-- Whether a value is of a kind. A truth value is no number, and a number without fraction is whole. -/
def Kind.admits : Kind → Value → Bool
  | .object, .map _ => true
  | .array, .list _ => true
  | .string, .str _ => true
  | .number, .int _ => true
  | .number, .float _ => true
  | .integer, .int _ => true
  | .integer, .float x => x.isWhole
  | .boolean, .bool _ => true
  | .null, .null => true
  | _, _ => false

mutual

/-- A schema is a list of rules that all have to hold. -/
inductive Schema where
  | rules (all : List Rule)

/-- One rule of a schema. All but `kinds` and `oneOf` hold of every value of another kind. -/
inductive Rule where
  /-- The value is of one of the kinds. -/
  | kinds (allowed : List Kind)
  /-- The value is one of the numbers. -/
  | oneOf (numbers : List Int)
  /-- The mapping has the fields. -/
  | required (names : List String)
  /-- The mapping has no other fields. -/
  | noOthers (names : List String)
  /-- The fields, where they are there, keep to their schemas. -/
  | fields (schemas : List (String × Schema))
  /-- Every item of the list keeps to the schema. -/
  | items (schema : Schema)
  /-- The number is greater than zero. -/
  | positive
  /-- The list or text is not empty. -/
  | nonEmpty
  /-- The text is a dot followed by characters that are no slashes of either kind. -/
  | dotted

end

/-- A step from a value to a part of it. -/
inductive Descent where
  | field (name : String)
  | item (index : Nat)
  deriving DecidableEq, Repr

/-- How a value departs from a rule. -/
inductive Departure where
  | wrongKind (value : Value) (allowed : List Kind)
  | notListed (value : Value) (numbers : List Int)
  | missing (name : String)
  | unexpected (keys : List Value)
  | notPositive (value : Value)
  | empty (value : Value)
  | notDotted (value : Value)

/-- A departure, where it is, and whether the value there is of a kind its schema allows. -/
structure Violation where
  place : List Descent
  departure : Departure
  kindAdmitted : Bool

/-- The pattern that dotted texts match. -/
def dottedPattern : String := "^\\.[^/\\\\]+$"

/-- A dot and at least one more character, none of them a slash of either kind. -/
def isDotted (s : String) : Bool :=
  match s.toList with
  | '.' :: c :: rest => (c :: rest).all fun c => c ≠ '/' && c ≠ '\\'
  | _ => false

def Departure.message : Departure → String
  | .wrongKind v allowed =>
    v.shown ++ " is not of type " ++ String.intercalate ", " (allowed.map fun k => Text.quoted k.name)
  | .notListed v numbers => v.shown ++ " is not one of " ++ (Value.list (numbers.map .int)).shown
  | .missing name => Text.quoted name ++ " is a required property"
  | .unexpected keys =>
    "Additional properties are not allowed (" ++ String.intercalate ", " (keys.map Value.shown) ++
      (if keys.length = 1 then " was" else " were") ++ " unexpected)"
  | .notPositive v => v.shown ++ " is less than or equal to the minimum of 0"
  | .empty v => v.shown ++ " should be non-empty"
  | .notDotted v => v.shown ++ " does not match " ++ Text.quoted dottedPattern

def Violation.message (v : Violation) : String := v.departure.message

namespace Schema

/-- Whether a value is a number that is not greater than zero. -/
def notPositive : Value → Bool
  | .int i => i ≤ 0
  | .float x => !x.isPositive && x != .nan
  | _ => false

/-- Whether a value is one of some whole numbers; truth values are none. -/
def isListed (numbers : List Int) : Value → Bool
  | .int i => numbers.contains i
  | .float x => x.toInt?.any numbers.contains
  | _ => false

/-- The keys of a mapping that are not among the names, in the order of their texts. -/
def otherKeys (names : List String) (entries : List (Value × Value)) : List Value :=
  let keys := (entries.map Prod.fst).filter fun k =>
    match k with
    | .str s => !names.contains s
    | _ => true
  keys.mergeSort fun a b => decide (a.plain ≤ b.plain)

/-- How a value departs from a rule that speaks about the value as a whole. -/
def departures (v : Value) : Rule → List Departure
  | .kinds allowed => if allowed.any fun k => k.admits v then [] else [.wrongKind v allowed]
  | .oneOf numbers => if isListed numbers v then [] else [.notListed v numbers]
  | .required names =>
    match v with
    | .map entries => (names.filter fun n => (Value.entryFor? n entries).isNone).map .missing
    | _ => []
  | .noOthers names =>
    match v with
    | .map entries =>
      let others := otherKeys names entries
      if others.isEmpty then [] else [.unexpected others]
    | _ => []
  | .positive => if notPositive v then [.notPositive v] else []
  | .nonEmpty =>
    match v with
    | .list [] => [.empty v]
    | .str "" => [.empty v]
    | _ => []
  | .dotted =>
    match v with
    | .str s => if isDotted s then [] else [.notDotted v]
    | _ => []
  | .fields _ => []
  | .items _ => []

/-- Whether a value is of a kind that the rules allow. -/
def kindAdmitted (rules : List Rule) (v : Value) : Bool :=
  rules.all fun r =>
    match r with
    | .kinds allowed => allowed.any fun k => k.admits v
    | _ => true

mutual

/-- Every departure of a value from a schema, in the order of the rules. -/
def violations : Schema → List Descent → Value → List Violation
  | .rules all => fun place v => ruleViolations all place v (kindAdmitted all v)

def ruleViolations : List Rule → List Descent → Value → Bool → List Violation
  | [] => fun _ _ _ => []
  | r :: rest => fun place v admitted =>
    (departures v r).map (fun d => ⟨place, d, admitted⟩) ++ partViolations r place v ++
      ruleViolations rest place v admitted

/-- The departures of the parts of a value from the rule for them. -/
def partViolations : Rule → List Descent → Value → List Violation
  | .fields schemas => fieldViolations schemas
  | .items schema => fun place v =>
    v.items.zipIdx.flatMap fun (item, i) => violations schema (place ++ [.item i]) item
  | _ => fun _ _ => []

def fieldViolations : List (String × Schema) → List Descent → Value → List Violation
  | [] => fun _ _ => []
  | (name, schema) :: rest => fun place v =>
    (match v.get? name with
      | some part => violations schema (place ++ [.field name]) part
      | none => []) ++ fieldViolations rest place v

end

/-- Whether one step comes before another. Steps at the same place are of the same sort. -/
def descentBefore : Descent → Descent → Bool
  | .field a, .field b => decide (a < b)
  | .item a, .item b => a < b
  | .item _, .field _ => true
  | .field _, .item _ => false

/-- Whether a place comes before another of the same depth. -/
def placeBefore : List Descent → List Descent → Bool
  | [], [] => false
  | [], _ :: _ => true
  | _ :: _, [] => false
  | a :: as, b :: bs => if a = b then placeBefore as bs else descentBefore a b

/-- Whether a violation is less worth reporting than another. -/
def lessTelling (a b : Violation) : Bool :=
  if a.place.length ≠ b.place.length then b.place.length < a.place.length
  else if a.place ≠ b.place then placeBefore a.place b.place
  else a.kindAdmitted && !b.kindAdmitted

/-- The violation that is reported: the first of those that no other one outdoes. -/
def worst? : List Violation → Option Violation
  | [] => none
  | v :: rest => some (rest.foldl (fun best w => if lessTelling best w then w else best) v)

/-- The violation to report about a value; `none` if the value keeps to the schema. -/
def check (schema : Schema) (v : Value) : Option Violation := worst? (schema.violations [] v)

end Schema

end InkServer
