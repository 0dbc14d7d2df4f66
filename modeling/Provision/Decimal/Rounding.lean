/-! # Binary64 values and rational numbers

A finite binary64 value is `mantissa · 2 ^ exponent`. `ofRatio` rounds a quotient of natural
numbers to the nearest such value, a tie to the even mantissa. -/

namespace Provision.Decimal

/-- The nonnegative number `mantissa · 2 ^ exponent`. -/
structure Binary where
  mantissa : Nat
  exponent : Int
  deriving Repr, DecidableEq

/-- `num / den` rounded to the nearest natural number, a tie to the even one. -/
def roundDiv (num den : Nat) : Nat :=
  let q := num / den
  let r := num % den
  if 2 * r < den then q
  else if den < 2 * r then q + 1
  else if q % 2 = 0 then q else q + 1

/-- `num / den · base ^ e` as a quotient of natural numbers. -/
def scale (base : Nat) (e : Int) (num den : Nat) : Nat × Nat :=
  if 0 ≤ e then (num * Nat.pow base e.toNat, den) else (num, den * Nat.pow base (-e).toNat)

def bitsOfInfinity : Nat := 2047 * Nat.pow 2 52

/-- The bits of the value of `mantissa · 2 ^ exponent`, for a mantissa of at most 53 bits and its
carry; the leading bit of a 53 bit mantissa adds one to the stored exponent. -/
def Binary.bits (b : Binary) : Nat :=
  min bitsOfInfinity
    (if b.mantissa < Nat.pow 2 52 then b.mantissa
     else (b.exponent + 1074).toNat * Nat.pow 2 52 + b.mantissa)

/-- The exponent that leaves 53 bits before the point of `num / den`, and the least one there is
for small quotients. -/
def exponentOf (num den : Nat) : Int :=
  let e : Int := (num.log2 : Int) - den.log2 - 53
  let (n, d) := scale 2 (-e) num den
  max (-1074) (if n / d < Nat.pow 2 53 then e else e + 1)

/-- The binary64 value nearest to `num / den`. -/
def ofRatio (num den : Nat) : Float :=
  if num = 0 then 0.0
  else
    let e := exponentOf num den
    let (n, d) := scale 2 (-e) num den
    Float.ofBits (Binary.bits ⟨roundDiv n d, e⟩).toUInt64

/-- The binary64 value nearest to `digits · 10 ^ exponent`. Exponents far outside the range of
the format are answered without computing the power. -/
def ofDecimal (digits : Nat) (exponent : Int) : Float :=
  let places : Int := (Nat.toDigits 10 digits).length
  if digits = 0 then 0.0
  else if 400 < places + exponent then Float.ofBits bitsOfInfinity.toUInt64
  else if places + exponent < -400 then 0.0
  else
    let (n, d) := scale 10 exponent digits 1
    ofRatio n d

/-- Sign, and absolute value unless it is an infinity or no number. -/
def parts (x : Float) : Bool × Option Binary :=
  let bits := x.toBits.toNat
  let fraction : Nat := bits % Nat.pow 2 52
  let stored : Nat := bits / Nat.pow 2 52 % 2048
  (Nat.pow 2 63 ≤ bits,
    if stored = 2047 then none
    else if stored = 0 then some ⟨fraction, -1074⟩
    else some ⟨Nat.pow 2 52 + fraction, (stored : Int) - 1075⟩)

end Provision.Decimal
