import Provision.Decimal.Integer

/-! # Reading real numbers

A real number may have a sign, a point and a power of ten, digits of any script, and white space
around it. Words stand for infinities and for values that are no numbers. -/

namespace Provision.Decimal

def infinity : Float := 1.0 / 0.0

def noNumber : Float := 0.0 / 0.0

/-- The words, in small letters. -/
def realWords : List (String × Float) :=
  [("inf", infinity), ("infinity", infinity), ("nan", noNumber)]

/-- The digits at the front, and what follows. -/
def spanDigits (cs : List Char) : List Nat × List Char :=
  let run := cs.takeWhile fun c => (digitValue? c).isSome
  (run.filterMap digitValue?, cs.drop run.length)

/-- The power of ten behind a number. -/
def power? : List Char → Option Int
  | [] => some 0
  | c :: cs =>
    let (negative, cs) := signed cs
    let (ds, rest) := spanDigits cs
    if (c = 'e' || c = 'E') && !ds.isEmpty && rest.isEmpty then
      some (if negative then -(ofDigits 10 ds : Int) else ofDigits 10 ds)
    else none

/-- A number without a sign, the nearest there is to its digits. -/
def unsignedReal? (cs : List Char) : Option Float :=
  let (whole, rest) := spanDigits cs
  let (fraction, rest) :=
    match rest with
    | '.' :: r => spanDigits r
    | r => ([], r)
  if whole.isEmpty && fraction.isEmpty then none
  else (power? rest).map fun e => ofDecimal (ofDigits 10 (whole ++ fraction)) (e - fraction.length)

def real? (cs : List Char) : Option Float :=
  let (negative, cs) := signed (Text.strip Text.isSpace cs)
  let size :=
    match realWords.lookup (String.ofList (cs.map Char.toLower)) with
    | some x => some x
    | none => unsignedReal? cs
  size.map fun x => if negative then -x else x

end Provision.Decimal
