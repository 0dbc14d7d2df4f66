import Provision.Decimal.Text
import Provision.Json.Basic
import Provision.Text.Blank

/-! # Reading whole numbers

A whole number in some base may be written in the decimal digits of any script, with a sign in
front, white space around it, and underscores that stand alone between digits. -/

namespace Provision.Decimal

/-- The zeros of the decimal digits of all scripts; the other nine follow each. -/
def zeroDigits : List Nat :=
  [48, 1632, 1776, 1984, 2406, 2534, 2662, 2790, 2918, 3046, 3174, 3302, 3430, 3558, 3664, 3792,
    3872, 4160, 4240, 6112, 6160, 6470, 6608, 6784, 6800, 6992, 7088, 7232, 7248, 42528, 43216,
    43264, 43472, 43504, 43600, 44016, 65296, 66720, 68912, 69734, 69872, 69942, 70096, 70384,
    70736, 70864, 71248, 71360, 71472, 71904, 72016, 72784, 73040, 73120, 92768, 92864, 93008,
    120782, 120792, 120802, 120812, 120822, 123200, 123632, 125264, 130032]

def digitValue? (c : Char) : Option Nat :=
  (zeroDigits.find? fun z => z ≤ c.toNat && c.toNat < z + 10).map (c.toNat - ·)

/-- Why a text is no whole number. -/
inductive IntegerFault where
  | notInteger
  | tooManyDigits
  deriving DecidableEq, Repr

/-- A digit in bases up to 36: after the decimal digits come the letters, in either case. -/
def anyDigit? (c : Char) : Option Nat :=
  match digitValue? c with
  | some d => some d
  | none =>
    let l := c.toLower
    if 'a' ≤ l && l ≤ 'z' then some (l.toNat - 87) else none

def digitIn? (base : Nat) (c : Char) : Option Nat :=
  (anyDigit? c).filter (· < base)

/-- Digits with underscores between them. `afterDigit` tells that the last character was a
digit. -/
def groupedDigits? (base : Nat) (afterDigit : Bool) : List Char → Option (List Nat)
  | [] => if afterDigit then some [] else none
  | c :: cs =>
    if c = '_' then if afterDigit then groupedDigits? base false cs else none
    else do
      let d ← digitIn? base c
      return d :: (← groupedDigits? base true cs)

def ofDigits (base : Nat) (ds : List Nat) : Nat :=
  ds.foldl (fun n d => base * n + d) 0

/-- The letter behind a zero that announces a base. -/
def baseLetter? (base : Nat) : Option Char :=
  if base = 2 then some 'b' else if base = 8 then some 'o' else if base = 16 then some 'x' else none

/-- Drops the announcement of a base, and an underscore behind it. -/
def withoutBase (base : Nat) : List Char → List Char
  | z :: l :: cs =>
    if digitValue? z = some 0 && baseLetter? base = some l.toLower then
      if cs.head? = some '_' then cs.drop 1 else cs
    else z :: l :: cs
  | cs => cs

/-- Reads a whole number. In base ten too many digits are a fault of their own, also where
something else follows them. -/
def integer (base : Nat) (cs : List Char) : Except IntegerFault Int :=
  let (negative, cs) := signed (Text.strip Text.isSpace cs)
  let cs := withoutBase base cs
  let run := cs.takeWhile fun c => c = '_' || (digitIn? base c).isSome
  match groupedDigits? base false run with
  | none => .error .notInteger
  | some ds =>
    let n := ofDigits base ds
    if base = 10 && Json.digitLimit < ds.length then .error .tooManyDigits
    else if run.length < cs.length then .error .notInteger
    else .ok (if negative then -(n : Int) else n)

/-- The value of a text that is a whole number. -/
def integer? (s : String) : Option Int :=
  match integer 10 s.toList with
  | .ok n => some n
  | .error _ => none

end Provision.Decimal
