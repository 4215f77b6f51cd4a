import InkServer.Text.CaseTable
import InkServer.Text.Printable

/-!
# Lower case

Lower-casing a text by the full rules of Unicode: letters go to their lower-case letter, the capital I
with a dot becomes two characters, and a capital sigma takes its final form at the end of a word.
-/

namespace InkServer.Text

/-- The lower case of one character where it is a single character and does not depend on its
neighbours. -/
def lowerChar (c : Char) : Char :=
  let n := c.toNat
  match lowerRuns.find? fun run =>
      run.first ≤ n && n ≤ run.last && (n - run.first) % run.stride == 0 with
  | some run => Char.ofNat (run.image + (n - run.first))
  | none => c

def isCased (c : Char) : Bool := inRuns casedRuns c.toNat 0 casedRuns.size

def isCaseIgnorable (c : Char) : Bool := inRuns caseIgnorableRuns c.toNat 0 caseIgnorableRuns.size

/-- Whether the first character that counts, if there is one, carries case. -/
def cased (cs : List Char) : Bool :=
  match cs.dropWhile isCaseIgnorable with
  | [] => false
  | c :: _ => isCased c

/-- Lower-cases the rest of a text after `before`, which is given last character first. -/
def lowerFrom (before : List Char) : List Char → List Char
  | [] => []
  | c :: rest =>
    let image :=
      if c = 'Σ' then [if cased before && !cased rest then 'ς' else 'σ']
      else if c = 'İ' then ['i', '\u0307']
      else [lowerChar c]
    image ++ lowerFrom (c :: before) rest

/-- The lower case of a text. -/
def lower (s : String) : String := String.ofList (lowerFrom [] s.toList)

end InkServer.Text
