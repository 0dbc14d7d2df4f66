/-! # Similar words

How alike two words are: the longest run of characters that both hold is taken, then the longest
runs to the left and to the right of it, and so on. `closest` finds the names that a misspelled word
may have meant. -/

namespace Provision.Text

/-- The length of what two texts have in common at the front. -/
def commonLength : List Char → List Char → Nat
  | a :: as, b :: bs => if a = b then commonLength as bs + 1 else 0
  | _, _ => 0

/-- A run of characters that two texts have in common, and where it begins in each. -/
structure Run where
  left : Nat := 0
  right : Nat := 0
  size : Nat := 0
  deriving DecidableEq, Repr

def runAt (as bs : List Char) (i j : Nat) : Run :=
  ⟨i, j, commonLength (as.drop i) (bs.drop j)⟩

/-- The longest common run; of several the first in the left text, and of those the first in the
right. -/
def longestRun (as bs : List Char) : Run :=
  let runs := (List.range as.length).flatMap fun i =>
    (List.range bs.length).map fun j => runAt as bs i j
  runs.foldl (fun best r => if best.size < r.size then r else best) {}

/-- How many characters two texts have in common, run by run. The first argument is as large as
the left text. -/
def commonWithin : Nat → List Char → List Char → Nat
  | 0, _, _ => 0
  | fuel + 1, as, bs =>
    let r := longestRun as bs
    if r.size = 0 then 0
    else
      r.size + commonWithin fuel (as.take r.left) (bs.take r.right) +
        commonWithin fuel (as.drop (r.left + r.size)) (bs.drop (r.right + r.size))

def common (as bs : List Char) : Nat :=
  commonWithin as.length as bs

/-- A name beside a word: what they have in common, and what they have in all. -/
structure Likeness where
  name : String
  common : Nat
  total : Nat
  deriving DecidableEq, Repr

def likeness (word name : String) : Likeness :=
  ⟨name, Text.common name.toList word.toList, name.length + word.length⟩

/-- Six tenths of the characters of both are common to both. -/
def Likeness.isClose (l : Likeness) : Bool :=
  3 * l.total ≤ 10 * l.common

/-- More alike comes first, and of names that are equally alike the later one. -/
def Likeness.precedes (l m : Likeness) : Bool :=
  let a := l.common * m.total
  let b := m.common * l.total
  b < a || (a = b && m.name ≤ l.name)

/-- At most so many names are given. -/
def mostNames : Nat := 3

/-- The names that are most like a word, in rising order. -/
def closest (word : String) (names : List String) : List String :=
  let found := (((names.map (likeness word)).filter Likeness.isClose).mergeSort
    Likeness.precedes).take mostNames
  (found.map Likeness.name).mergeSort fun a b => decide (a ≤ b)

end Provision.Text
