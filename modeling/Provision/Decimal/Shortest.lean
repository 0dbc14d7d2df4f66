import Provision.Decimal.Rounding

/-! # The shortest decimal that reads back

`shortest b` has the fewest digits of all decimals that round to `b`, and of those it is the
nearest to `b`. The numbers that round to `b` form an interval, closed when the mantissa is even;
a grid of decimals that meets it meets it in a neighbour of `b`, so two candidates a grid do. -/

namespace Provision.Decimal

/-- The number `digits · 10 ^ exponent`. -/
structure Scientific where
  digits : Nat
  exponent : Int
  deriving Repr, DecidableEq

def places (n : Nat) : Nat :=
  (Nat.toDigits 10 n).length

/-- The exponent of the leading decimal digit of `num / den`. -/
def leadingPlace (num den : Nat) : Int :=
  if den ≤ num then (places (num / den) : Int) - 1
  else -(places (den / num) : Int)

/-- Twice the distances from `b` to the ends of its rounding interval are `2` and `2`, in units of
a quarter of the last bit, except that the lower one is `1` when `b` is a power of two. -/
def lowerGap (b : Binary) : Nat :=
  if b.mantissa = Nat.pow 2 52 && -1074 < b.exponent then 1 else 2

/-- The decimal with `n` digits nearest to `b` that rounds to `b`, if there is one. -/
def onGrid (b : Binary) (lead : Int) (n : Nat) : Option Scientific :=
  let exponent := lead + 1 - n
  -- candidate `c` stands for `c · a`, quarter units for `x · u`
  let (u, a) := scale 2 (b.exponent - 2) 1 1
  let (a, u) := scale 10 exponent a u
  let centre := 4 * b.mantissa * u
  let low := (4 * b.mantissa - lowerGap b) * u
  let high := (4 * b.mantissa + 2) * u
  let rounds (c : Nat) : Bool :=
    if b.mantissa % 2 = 0 then low ≤ c * a && c * a ≤ high else low < c * a && c * a < high
  let c := centre / a
  let below := centre - c * a
  let above := (c + 1) * a - centre
  let near := if below < above || (below = above && c % 2 = 0) then [c, c + 1] else [c + 1, c]
  (near.find? rounds).map (⟨·, exponent⟩)

/-- Seventeen digits always do. -/
def shortest (b : Binary) : Scientific :=
  let (num, den) := scale 2 b.exponent b.mantissa 1
  let lead := leadingPlace num den
  ((List.range 17).findSome? fun n => onGrid b lead (n + 1)).getD ⟨num / den, 0⟩

end Provision.Decimal
