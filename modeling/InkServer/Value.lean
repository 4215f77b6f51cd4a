import InkServer.Number.Binary64
import InkServer.Text.Quoted
import InkServer.Dict

/-!
# Dynamic values

The values that settings, configuration files and messages are made of, before anything is known about
their shape. A mapping keeps the order of its entries. `shown` is how a value appears in a message.
-/

namespace InkServer

/-- A value read from JSON or YAML. `other` is a value of a kind that nothing here uses, such as a
date; only its appearance is kept. -/
inductive Value where
  | null
  | bool (b : Bool)
  | int (i : Int)
  | float (x : Binary64)
  | str (s : String)
  | list (items : List Value)
  | map (entries : List (Value × Value))
  | other (appearance : String)
  deriving Inhabited, Repr

namespace Value

/-- A mapping from texts. -/
def object (fields : List (String × Value)) : Value :=
  .map (fields.map fun (k, v) => (.str k, v))

/-- A list of texts. -/
def texts (ss : List String) : Value := .list (ss.map .str)

/-- A text or nothing. -/
def ofText? : Option String → Value
  | some s => .str s
  | none => .null

/-- A natural number. -/
def nat (n : Nat) : Value := .int n

/-! ## Appearance -/

mutual

/-- How a value appears in a message. -/
def shown : Value → String
  | .null => "None"
  | .bool true => "True"
  | .bool false => "False"
  | .int i => toString i
  | .float x => x.text
  | .str s => Text.quoted s
  | .list items => "[" ++ String.intercalate ", " (shownItems items) ++ "]"
  | .map entries => "\x7b" ++ String.intercalate ", " (shownEntries entries) ++ "\x7d"
  | .other appearance => appearance

def shownItems : List Value → List String
  | [] => []
  | v :: rest => shown v :: shownItems rest

def shownEntries : List (Value × Value) → List String
  | [] => []
  | (k, v) :: rest => (shown k ++ ": " ++ shown v) :: shownEntries rest

end

/-- How a value appears when it is a message of its own: texts without quotes. -/
def plain : Value → String
  | .str s => s
  | v => v.shown

/-- How the kind of a value is called in a message. -/
def kindName : Value → String
  | .null => "NoneType"
  | .bool _ => "bool"
  | .int _ => "int"
  | .float _ => "float"
  | .str _ => "str"
  | .list _ => "list"
  | .map _ => "dict"
  | .other appearance => String.ofList (appearance.toList.takeWhile (· ≠ '('))

/-! ## Taking values apart -/

/-- The entry of a mapping under a text. -/
def entryFor? (key : String) : List (Value × Value) → Option Value
  | [] => none
  | (.str k, v) :: rest => if k = key then some v else entryFor? key rest
  | _ :: rest => entryFor? key rest

/-- The entry of a mapping under a text; `none` for a value that is no mapping. -/
def get? (v : Value) (key : String) : Option Value :=
  match v with
  | .map entries => entryFor? key entries
  | _ => none

/-- The entry of a mapping under a text, nothing and `null` alike. -/
def field (v : Value) (key : String) : Value := (v.get? key).getD .null

/-- Whether an entry is there, be it `null`. -/
def has (v : Value) (key : String) : Bool := (v.get? key).isSome

def text? : Value → Option String
  | .str s => some s
  | _ => none

def int? : Value → Option Int
  | .int i => some i
  | _ => none

def nat? : Value → Option Nat
  | .int (.ofNat n) => some n
  | _ => none

def items? : Value → Option (List Value)
  | .list items => some items
  | _ => none

def entries? : Value → Option (List (Value × Value))
  | .map entries => some entries
  | _ => none

/-- The items of a list, none for any other value. -/
def items (v : Value) : List Value := v.items?.getD []

/-- The text of a value that is one, the empty text otherwise. -/
def textD (v : Value) : String := v.text?.getD ""

/-- The texts among the items of a list. -/
def textItems (v : Value) : List String := v.items.filterMap text?

def isNull : Value → Bool
  | .null => true
  | _ => false

/-- Whether a value counts as present: everything but `null`, `false`, zero and what is empty. -/
def isTruthy : Value → Bool
  | .null => false
  | .bool b => b
  | .int i => i != 0
  | .float x => !x.isZero
  | .str s => s != ""
  | .list items => !items.isEmpty
  | .map entries => !entries.isEmpty
  | .other _ => true

/-- The whole number that a key counts as, so that `1`, `1.0` and `true` are one key. -/
def keyInt? : Value → Option Int
  | .bool b => some (if b then 1 else 0)
  | .int i => some i
  | .float x => x.toInt?
  | _ => none

/-- Whether two keys of a mapping are the same key. -/
def sameKey (a b : Value) : Bool :=
  match a, b with
  | .null, .null => true
  | .str s, .str t => s == t
  | .other s, .other t => s == t
  | .float x, .float y => x == y || (x.toInt?.isSome && x.toInt? == y.toInt?)
  | a, b => a.keyInt?.isSome && a.keyInt? == b.keyInt?

/-- Gives a key of a mapping a value: where it stands if it is there, at the end otherwise. -/
def putEntry (key value : Value) : List (Value × Value) → List (Value × Value)
  | [] => [(key, value)]
  | (k, v) :: rest =>
    if sameKey k key then (k, value) :: rest else (k, v) :: putEntry key value rest

/-- Gives a text key a value. -/
def putField (key : String) (value : Value) (entries : List (Value × Value)) : List (Value × Value) :=
  putEntry (.str key) value entries

end Value

end InkServer
