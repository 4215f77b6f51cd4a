/-!
# Similar words

How much two words have in common, for guessing what somebody meant who mistyped a word. The longest
common run counts, and what the words have in common before and after it.
-/

namespace InkServer.Text

/-- How many characters two lists have in common from their beginning. -/
def commonRun : List Char → List Char → Nat
  | a :: as, b :: bs => if a = b then commonRun as bs + 1 else 0
  | _, _ => 0

/-- A run that two words have in common: where it begins in each, and its length. -/
structure CommonRun where
  first : Nat
  second : Nat
  length : Nat

/-- The longest common run of two words; of equally long ones the first. -/
def longestRun (a b : List Char) : CommonRun :=
  (List.range a.length).foldl (fun best i =>
    (List.range b.length).foldl (fun best j =>
      let n := commonRun (a.drop i) (b.drop j)
      if best.length < n then ⟨i, j, n⟩ else best) best) ⟨0, 0, 0⟩

/-- How many characters two words have in common, run by run; each call uses up fuel, and the length of
the first word is enough. -/
def commonCount : Nat → List Char → List Char → Nat
  | 0, _, _ => 0
  | fuel + 1, a, b =>
    let run := longestRun a b
    if run.length = 0 then 0
    else
      run.length + commonCount fuel (a.take run.first) (b.take run.second) +
        commonCount fuel (a.drop (run.first + run.length)) (b.drop (run.second + run.length))

/-- A known word and what it has in common with the word that was meant. -/
structure Likeness where
  word : String
  common : Nat
  total : Nat

def Likeness.of (known meant : String) : Likeness :=
  let a := known.toList
  let b := meant.toList
  ⟨known, commonCount a.length a b, a.length + b.length⟩

/-- Whether three fifths of the two words are in common. -/
def Likeness.isClose (l : Likeness) : Bool := 3 * l.total ≤ 10 * l.common

/-- Whether one word is likelier than another; of equally likely ones the later in order is. -/
def Likeness.before (l m : Likeness) : Bool :=
  let x := l.common * m.total
  let y := m.common * l.total
  y < x || (x == y && decide (m.word ≤ l.word))

/-- The known words that are close to a word, the likeliest first, at most three. -/
def closeWords (known : List String) (meant : String) : List String :=
  let close := (known.map fun k => Likeness.of k meant).filter Likeness.isClose
  ((close.mergeSort Likeness.before).take 3).map (·.word)

end InkServer.Text
