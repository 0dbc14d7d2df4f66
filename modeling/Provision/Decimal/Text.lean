import Provision.Decimal.Shortest

/-! # Decimal text of numbers

Writing binary64 values with the shortest digits that read back, and reading decimal texts. -/

namespace Provision.Decimal

/-- The words for the values that have no digits. -/
structure Words where
  nan : String
  infinity : String

def zeros (n : Nat) : List Char :=
  List.replicate n '0'

/-- Drops the zeros at the end of a list of digits. -/
def significant (ds : List Char) : List Char :=
  (ds.reverse.dropWhile (· = '0')).reverse

/-- At least one digit after the point. -/
def fraction (ds : List Char) : List Char :=
  '.' :: if ds.isEmpty then ['0'] else ds

/-- Digits `ds` with the first at decimal place `lead`, without an exponent. -/
def positional (ds : List Char) (lead : Int) : List Char :=
  if lead < 0 then '0' :: fraction (zeros ((-lead).toNat - 1) ++ ds)
  else
    let whole := lead.toNat + 1
    ds.take whole ++ zeros (whole - ds.length) ++ fraction (ds.drop whole)

/-- One digit before the point, no point after a single digit, and an exponent with its sign and
two digits or more. -/
def exponential (ds : List Char) (lead : Int) : List Char :=
  let e := Nat.toDigits 10 lead.natAbs
  ds.take 1 ++ (if ds.length ≤ 1 then [] else '.' :: ds.drop 1) ++
    ['e', if lead < 0 then '-' else '+'] ++ zeros (2 - e.length) ++ e

/-- Numbers from `10 ^ -4` up to `10 ^ 16` are written without an exponent. -/
def unsigned (b : Binary) : List Char :=
  if b.mantissa = 0 then ['0', '.', '0']
  else
    let s := shortest b
    let ds := Nat.toDigits 10 s.digits
    let lead := s.exponent + ds.length - 1
    if -4 ≤ lead && lead < 16 then positional (significant ds) lead
    else exponential (significant ds) lead

def floatText (words : Words) (x : Float) : String :=
  match parts x with
  | (negative, some b) => String.ofList ((if negative then ['-'] else []) ++ unsigned b)
  | (negative, none) =>
    if x.isNaN then words.nan else if negative then "-" ++ words.infinity else words.infinity

def intText (n : Int) : String :=
  String.ofList ((if n < 0 then ['-'] else []) ++ Nat.toDigits 10 n.natAbs)

/-- The value of a list of decimal digits. -/
def digitsValue (ds : List Char) : Nat :=
  ds.foldl (fun n c => 10 * n + (c.toNat - 48)) 0

/-- The sign in front of a number, and what follows it. -/
def signed : List Char → Bool × List Char
  | '-' :: cs => (true, cs)
  | '+' :: cs => (false, cs)
  | cs => (false, cs)

/-- A decimal fraction: sign, digits, and how many of the digits stand after the point, less the
power of ten it is multiplied with. -/
structure Literal where
  negative : Bool
  digits : List Char
  exponent : Int
  deriving Repr, DecidableEq

def Literal.toFloat (l : Literal) : Float :=
  let x := ofDecimal (digitsValue l.digits) l.exponent
  if l.negative then -x else x

end Provision.Decimal
