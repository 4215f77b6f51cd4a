import InkServer.Value

/-!
# Time limits

How long a compile may take. A limit is kept as the number that was given, since messages show it that
way.
-/

namespace InkServer

/-- A number of seconds. -/
inductive Seconds where
  | whole (count : Int)
  | real (count : Binary64)
  deriving DecidableEq, Repr

namespace Seconds

def text : Seconds → String
  | .whole n => toString n
  | .real x => x.text

/-- Whether no time passes at all. -/
def hasPassed : Seconds → Bool
  | .whole n => n ≤ 0
  | .real x => !x.isPositive

/-- Whether it is less than one second. -/
def isShort : Seconds → Bool
  | .whole n => n < 1
  | .real x => x.isBelowOne

def ofValue? : Value → Option Seconds
  | .int n => some (.whole n)
  | .float x => some (.real x)
  | _ => none

def toValue : Seconds → Value
  | .whole n => .int n
  | .real x => .float x

/-- The limit that holds if none is given. -/
def default : Seconds := .real (.ofInt 30)

instance : Inhabited Seconds := ⟨default⟩

end Seconds

end InkServer
