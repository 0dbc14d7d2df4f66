import Mathlib.Data.List.TakeWhile
import Provision.Proofs.Json.Tokens

/-!
# Texts of floating-point numbers

The text of a floating-point number begins with one token, which stands for a floating-point number (`begins_float`):
no zero stands in front of other digits, and there are digits behind a point and behind an exponent. Which number is
read does not matter here.
-/

namespace Provision

namespace Decimal

variable {b : Binary} {s : Scientific}

theorem scale_pos (base num den : Nat) (hb : 0 < base) (hn : 0 < num) (hd : 0 < den) (e : Int) :
    0 < (scale base e num den).1 ∧ 0 < (scale base e num den).2 := by
  rw [scale]
  split
  · exact ⟨Nat.mul_pos hn (Nat.pow_pos hb), hd⟩
  · exact ⟨hn, Nat.mul_pos hd (Nat.pow_pos hb)⟩

theorem pos_of_onGrid {lead : Int} {n : Nat} (hb : b.mantissa ≠ 0) (h : onGrid b lead n = some s) : 0 < s.digits := by
  rw [onGrid] at h
  obtain ⟨hu, ha⟩ := scale_pos 2 1 1 (by decide) Nat.one_pos Nat.one_pos (b.exponent - 2)
  obtain ⟨-, hu'⟩ := scale_pos 10 _ _ (by decide) ha hu (lead + 1 - n)
  obtain ⟨c, hc, rfl⟩ := Option.map_eq_some_iff.1 h
  have hrounds := List.find?_some hc
  have hgap : lowerGap b ≤ 2 := by
    rw [lowerGap]
    split <;> decide
  have hlow := Nat.mul_pos (show 0 < 4 * b.mantissa - lowerGap b by omega) hu'
  refine Nat.pos_of_ne_zero fun hzero => ?_
  dsimp only at hzero
  subst hzero
  split at hrounds
  · simp only [Bool.and_eq_true, decide_eq_true_eq, Nat.zero_mul] at hrounds
    exact Nat.lt_irrefl 0 (Nat.lt_of_lt_of_le hlow hrounds.1)
  · simp only [Bool.and_eq_true, decide_eq_true_eq, Nat.zero_mul] at hrounds
    exact Nat.not_lt_zero _ hrounds.1

theorem shortest_cases (hb : b.mantissa ≠ 0) : 0 < (shortest b).digits ∨ shortest b = ⟨0, 0⟩ := by
  rw [shortest]
  generalize scale 2 b.exponent b.mantissa 1 = x
  obtain ⟨num, den⟩ := x
  dsimp only
  cases hs : (List.range 17).findSome? fun n => onGrid b (leadingPlace num den) (n + 1) with
  | some s =>
    obtain ⟨n, -, hn⟩ := List.exists_of_findSome?_eq_some hs
    exact .inl (pos_of_onGrid hb hn)
  | none =>
    rw [Option.getD_none]
    rcases Nat.eq_zero_or_pos (num / den) with hq | hq
    · exact .inr (by rw [hq])
    · exact .inl hq

theorem significant_prefix (ds : List Char) : significant ds <+: ds := by
  rw [significant, ← List.reverse_suffix, List.reverse_reverse]
  exact List.dropWhile_suffix _

theorem significant_eq_cons {c : Char} (cs : List Char) (hc : c ≠ '0') : ∃ cs', significant (c :: cs) = c :: cs' := by
  obtain ⟨t, ht⟩ := significant_prefix (c :: cs)
  cases h : significant (c :: cs) with
  | cons x xs =>
    rw [h, List.cons_append] at ht
    exact ⟨xs, by rw [(List.cons.inj ht).1]⟩
  | nil =>
    rw [significant, List.reverse_eq_nil_iff, List.dropWhile_eq_nil_iff] at h
    have hzero := h c (List.mem_reverse.2 List.mem_cons_self)
    exact absurd (of_decide_eq_true hzero) hc

end Decimal

namespace Json

open Decimal (zeros fraction positional exponential significant unsigned)

variable {cs ds es rest : List Char}

/-- Digits, at least one. -/
def AreDigits (ds : List Char) : Prop :=
  ds ≠ [] ∧ ∀ c ∈ ds, c.isDigit = true

/-- A zero alone, or digits that do not begin with one. -/
def IsWhole (ds : List Char) : Prop :=
  ds = ['0'] ∨ AreDigits ds ∧ ds.head? ≠ some '0'

/-- The text does not go on with digits. -/
def EndsDigits (rest : List Char) : Prop :=
  ∀ c, rest.head? = some c → c.isDigit = false

/-- Behind its sign the text is read as some floating-point number, whatever ends it. -/
def IsReal (cs : List Char) : Prop :=
  (∃ c tail, cs = c :: tail ∧ c.isDigit = true) ∧
    ∀ negative, ∃ y, ∀ rest, EndsNumber rest → number? negative (cs ++ rest) = some (.scalar (.float y), rest)

theorem EndsNumber.digits (h : EndsNumber rest) : EndsDigits rest := by
  intro c hc
  cases rest with
  | nil => cases hc
  | cons d rest =>
    cases hc
    exact h.1

theorem digits_of_ends (hds : ∀ c ∈ ds, c.isDigit = true) (hrest : EndsDigits rest) :
    digits (ds ++ rest) = (ds, rest) := by
  rw [digits, List.takeWhile_append_of_pos hds, List.dropWhile_append_of_pos hds]
  cases rest with
  | nil => simp
  | cons c rest =>
    have hc : ¬ c.isDigit = true := by simp [hrest c rfl]
    rw [List.takeWhile_cons_of_neg hc, List.dropWhile_cons_of_neg hc, List.append_nil]

theorem wholeDigits_of_ends (hds : IsWhole ds) (hrest : EndsDigits rest) : wholeDigits (ds ++ rest) = (ds, rest) := by
  rcases hds with rfl | ⟨⟨-, hds⟩, hzero⟩
  · rfl
  · rw [wholeDigits.eq_def]
    split
    · rename_i heq
      cases ds with
      | nil =>
        rw [List.nil_append] at heq
        rw [heq] at hrest
        cases hrest '0' rfl
      | cons c ds => exact absurd (congrArg some (List.cons.inj heq).1) hzero
    · exact digits_of_ends hds hrest

theorem fractionDigits_point (hds : AreDigits ds) (hrest : EndsDigits rest) :
    fractionDigits ('.' :: (ds ++ rest)) = (ds, rest) := by
  rw [fractionDigits, digits_of_ends hds.2 hrest, if_neg (by simpa using hds.1)]

theorem fractionDigits_of_ne (h : rest.head? ≠ some '.') : fractionDigits rest = ([], rest) := by
  rw [fractionDigits.eq_def]
  split
  · exact absurd rfl h
  · rfl

theorem exponent_of_ends (h : EndsNumber rest) : exponent? rest = none := by
  cases rest with
  | nil => rfl
  | cons c rest => simp [exponent?, h.2.2.1, h.2.2.2]

theorem exponent_of_digits (negative : Bool) (hes : AreDigits es) (hrest : EndsDigits rest) :
    exponent? ('e' :: (if negative then '-' else '+') :: (es ++ rest)) =
      some (if negative then -(Decimal.digitsValue es : Int) else Decimal.digitsValue es, rest) := by
  have hsign : sign ((if negative then '-' else '+') :: (es ++ rest)) = (negative, es ++ rest) := by
    cases negative <;> rfl
  have hempty : ¬ es.isEmpty = true := by simpa using hes.1
  simp only [exponent?, hsign, digits_of_ends hes.2 hrest, beq_self_eq_true, Bool.true_or, if_true, if_neg hempty]

/-! ### Numbers with a point or an exponent -/

theorem IsWhole.areDigits (h : IsWhole ds) : AreDigits ds := by
  rcases h with rfl | ⟨h, -⟩
  · exact ⟨List.cons_ne_nil _ _, by simp⟩
  · exact h

theorem IsWhole.starts (h : IsWhole ds) (cs : List Char) : ∃ c tail, ds ++ cs = c :: tail ∧ c.isDigit = true := by
  obtain ⟨hne, hds⟩ := h.areDigits
  obtain ⟨c, ds, rfl⟩ := List.exists_cons_of_ne_nil hne
  exact ⟨c, ds ++ cs, rfl, hds c List.mem_cons_self⟩

theorem endsDigits_cons {c : Char} (h : c.isDigit = false) (cs : List Char) : EndsDigits (c :: cs) := by
  rintro _ ⟨⟩
  exact h

theorem isReal_point (hw : IsWhole ds) (hes : AreDigits es) : IsReal (ds ++ '.' :: es) := by
  refine ⟨hw.starts _, fun negative => ⟨Decimal.Literal.toFloat ⟨negative, ds ++ es, 0 - es.length⟩, ?_⟩⟩
  intro rest hrest
  have hds : ¬ ds.isEmpty = true := by simpa using hw.areDigits.1
  have hes' : ¬ es.isEmpty = true := by simpa using hes.1
  have hwhole := wholeDigits_of_ends hw (endsDigits_cons (c := '.') rfl (es ++ rest))
  rw [List.append_assoc, List.cons_append, number?, hwhole]
  simp only [if_neg hds, fractionDigits_point hes hrest.digits, exponent_of_ends hrest, if_neg hes']

theorem isReal_exponent {points : List Char} (hw : IsWhole ds)
    (hpoints : points = [] ∨ ∃ fs, AreDigits fs ∧ points = '.' :: fs) (negative : Bool) (hes : AreDigits es) :
    IsReal (ds ++ (points ++ 'e' :: (if negative then '-' else '+') :: es)) := by
  -- What stands behind the digits in front.
  obtain ⟨fs, hpoints⟩ : ∃ fs, ∀ rest,
      fractionDigits (points ++ 'e' :: rest) = (fs, 'e' :: rest) ∧ EndsDigits (points ++ 'e' :: rest) := by
    rcases hpoints with rfl | ⟨fs, hfs, rfl⟩
    · exact ⟨[], fun rest => ⟨fractionDigits_of_ne (by simp), endsDigits_cons rfl _⟩⟩
    · refine ⟨fs, fun rest => ⟨?_, endsDigits_cons rfl _⟩⟩
      rw [List.cons_append, fractionDigits_point hfs (endsDigits_cons rfl rest)]
  let e : Int := if negative then -(Decimal.digitsValue es : Int) else Decimal.digitsValue es
  refine ⟨hw.starts _, fun minus => ⟨Decimal.Literal.toFloat ⟨minus, ds ++ fs, e - fs.length⟩, fun rest hrest => ?_⟩⟩
  obtain ⟨hfraction, hends⟩ := hpoints ((if negative then '-' else '+') :: (es ++ rest))
  have hds : ¬ ds.isEmpty = true := by simpa using hw.areDigits.1
  have htext : ds ++ (points ++ 'e' :: (if negative then '-' else '+') :: es) ++ rest =
      ds ++ (points ++ 'e' :: (if negative then '-' else '+') :: (es ++ rest)) := by
    simp only [List.append_assoc, List.cons_append]
  rw [htext, number?, wholeDigits_of_ends hw hends]
  simp only [if_neg hds, hfraction, exponent_of_digits negative hes hrest.digits]
  rfl

theorem areDigits_toDigits (n : Nat) : AreDigits (Nat.toDigits 10 n) :=
  ⟨Nat.toDigits_ne_nil, List.all_eq_true.1 (Decimal.all_isDigit_toDigits n)⟩

theorem isDigit_zeros {n : Nat} {c : Char} (h : c ∈ zeros n) : c.isDigit = true := by
  rw [List.eq_of_mem_replicate h]
  rfl

theorem areDigits_fraction {ds : List Char} (hds : ∀ c ∈ ds, c.isDigit = true) :
    ∃ fs, AreDigits fs ∧ fraction ds = '.' :: fs := by
  rw [fraction]
  split
  · exact ⟨['0'], ⟨List.cons_ne_nil _ _, by simp⟩, rfl⟩
  · rename_i hne
    exact ⟨ds, ⟨by simpa using hne, hds⟩, rfl⟩

section

variable {c : Char} (hc : c ≠ '0') (hds : ∀ x ∈ c :: ds, x.isDigit = true)

include hc hds

theorem isReal_positional (lead : Int) : IsReal (positional (c :: ds) lead) := by
  rw [positional]
  split
  · have hall : ∀ x ∈ zeros ((-lead).toNat - 1) ++ c :: ds, x.isDigit = true := fun x hx => by
      rcases List.mem_append.1 hx with hx | hx
      · exact isDigit_zeros hx
      · exact hds x hx
    obtain ⟨fs, hfs, hfraction⟩ := areDigits_fraction hall
    rw [hfraction]
    exact isReal_point (.inl rfl) hfs
  · have hall : ∀ x ∈ (c :: ds).drop (lead.toNat + 1), x.isDigit = true := fun x hx => hds x (List.mem_of_mem_drop hx)
    obtain ⟨fs, hfs, hfraction⟩ := areDigits_fraction hall
    dsimp only
    rw [hfraction, List.take_succ_cons]
    refine isReal_point (.inr ⟨⟨List.cons_ne_nil _ _, fun x hx => ?_⟩, by simpa using hc⟩) hfs
    rcases List.mem_append.1 hx with hx | hx
    · rcases List.mem_cons.1 hx with rfl | hx
      · exact hds _ List.mem_cons_self
      · exact hds x (List.mem_cons_of_mem _ (List.mem_of_mem_take hx))
    · exact isDigit_zeros hx

theorem isReal_exponential (lead : Int) : IsReal (exponential (c :: ds) lead) := by
  have hwhole : IsWhole [c] := .inr ⟨⟨List.cons_ne_nil _ _, by simpa using hds c List.mem_cons_self⟩, by simpa using hc⟩
  have hes : AreDigits (zeros (2 - (Nat.toDigits 10 lead.natAbs).length) ++ Nat.toDigits 10 lead.natAbs) := by
    obtain ⟨hne, hall⟩ := areDigits_toDigits lead.natAbs
    refine ⟨by simp [hne], fun x hx => ?_⟩
    rcases List.mem_append.1 hx with hx | hx
    · exact isDigit_zeros hx
    · exact hall x hx
  have hpoints : (if (c :: ds).length ≤ 1 then [] else '.' :: ds) = [] ∨
      ∃ fs, AreDigits fs ∧ (if (c :: ds).length ≤ 1 then [] else '.' :: ds) = '.' :: fs := by
    split
    · exact .inl rfl
    · rename_i hlong
      refine .inr ⟨ds, ⟨?_, fun x hx => hds x (List.mem_cons_of_mem _ hx)⟩, rfl⟩
      rintro rfl
      exact hlong (Nat.le_refl 1)
  have hreal := isReal_exponent hwhole hpoints (decide (lead < 0)) hes
  simp only [exponential, List.take_succ_cons, List.take_zero, List.drop_succ_cons, List.drop_zero,
    List.append_assoc, List.cons_append, List.nil_append, decide_eq_true_eq] at hreal ⊢
  exact hreal

end

theorem isReal_unsigned (b : Decimal.Binary) : IsReal (unsigned b) := by
  have hzero : IsReal ['0', '.', '0'] := isReal_point (.inl rfl) ⟨List.cons_ne_nil _ _, by simp⟩
  rw [unsigned]
  split
  · exact hzero
  · rename_i hb
    rcases Decimal.shortest_cases hb with hpos | hs
    · obtain ⟨c, cs, hdigits, hc⟩ := Decimal.toDigits_eq_cons hpos
      obtain ⟨cs', hsignificant⟩ := Decimal.significant_eq_cons cs hc
      have hds : ∀ x ∈ c :: cs', x.isDigit = true := fun x hx => by
        have hmem := (Decimal.significant_prefix (c :: cs)).subset (hsignificant ▸ hx)
        exact (areDigits_toDigits _).2 x (hdigits ▸ hmem)
      dsimp only
      rw [hdigits, hsignificant]
      split
      · exact isReal_positional hc hds _
      · exact isReal_exponential hc hds _
    · rw [hs]
      exact hzero

theorem begins_real (h : IsReal cs) (negative : Bool) : ∃ y, ∀ rest, EndsNumber rest →
    Begins (((if negative then ['-'] else []) ++ cs) ++ rest) (.scalar (.float y)) rest := by
  obtain ⟨⟨c, tail, rfl, hd⟩, hnumber⟩ := h
  obtain ⟨y, hy⟩ := hnumber negative
  refine ⟨y, fun rest hrest => ?_⟩
  rw [List.append_assoc]
  exact .number hd negative (hy rest hrest)

theorem begins_float (x : Float) : ∃ y, ∀ rest, EndsNumber rest →
    Begins ((Decimal.floatText numberWords x).toList ++ rest) (.scalar (.float y)) rest := by
  rw [Decimal.floatText]
  split
  · rename_i negative b _
    rw [String.toList_ofList]
    exact begins_real (isReal_unsigned b) negative
  · rename_i negative _
    split
    · exact ⟨0.0 / 0.0, fun rest _ => .of_token (by decide) rfl⟩
    · cases negative with
      | false => exact ⟨1.0 / 0.0, fun rest _ => .of_token (by decide) rfl⟩
      | true => exact ⟨-1.0 / 0.0, fun rest _ => .of_token (by decide) rfl⟩

end Json

end Provision
