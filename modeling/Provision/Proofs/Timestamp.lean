import Mathlib.Algebra.Group.Nat.Defs
import Provision.Proofs.Decimal.Digits
import Provision.Timestamp

/-!
# Stored times read back

`read_text`: the stored form of a timestamp is read as the timestamp, to the microsecond and with its
distance from UTC. Every number in it is padded to a width, and reading so many digits gives the number
and stops behind it.
-/

namespace Provision.Timestamp

open Decimal (digitsValue zeros)

theorem digitsValue_zeros_append (k : Nat) (ds : List Char) :
    digitsValue (zeros k ++ ds) = digitsValue ds := by
  induction k with
  | zero => rfl
  | succ k ih => rw [← ih]; rfl

theorem length_padded {width n : Nat} (hw : 0 < width) (hn : n < 10 ^ width) :
    (padded width n).length = width := by
  have h := (Nat.length_toDigits_le_iff (by decide) hw).2 hn
  simp only [padded, zeros, List.length_append, List.length_replicate]
  omega

theorem all_isDigit_padded (width n : Nat) : (padded width n).all Char.isDigit = true := by
  have hz : (zeros (width - (Nat.toDigits 10 n).length)).all Char.isDigit = true :=
    List.all_eq_true.2 fun c hc => by rw [List.eq_of_mem_replicate hc]; decide
  rw [padded, List.all_append, hz, Decimal.all_isDigit_toDigits]
  rfl

theorem digitsValue_padded (width n : Nat) : digitsValue (padded width n) = n := by
  rw [padded, digitsValue_zeros_append, Decimal.digitsValue_toDigits]

theorem digits_padded {width n : Nat} (hw : 0 < width) (hn : n < 10 ^ width) (rest : List Char) :
    digits? width (padded width n ++ rest) = some (n, rest) := by
  have hl := length_padded hw hn
  have ht : (padded width n ++ rest).take width = padded width n := by
    rw [List.take_append_of_le_length (by omega), List.take_of_length_le (by omega)]
  have hd : (padded width n ++ rest).drop width = rest := by
    rw [List.drop_append_of_le_length (by omega), List.drop_of_length_le (by omega), List.nil_append]
  simp only [digits?, ht, hd, hl, all_isDigit_padded, digitsValue_padded]
  simp

variable {c : Clock} {rest : List Char}

theorem lt_of_isValid (h : c.isValid = true) :
    c.year < 10 ^ 4 ∧ c.month < 10 ^ 2 ∧ c.day < 10 ^ 2 ∧ c.hour < 10 ^ 2 ∧ c.minute < 10 ^ 2 ∧
      c.second < 10 ^ 2 ∧ c.micro < 10 ^ 6 := by
  have hday : daysInMonth c.year c.month ≤ 31 := by
    unfold daysInMonth
    split
    · split <;> decide
    · split <;> decide
  simp only [Clock.isValid, Clock.isRegular, Bool.and_eq_true, decide_eq_true_eq] at h
  omega

theorem date_dateText (h : c.isValid = true) (rest : List Char) :
    date? (dateText c ++ rest) = some ((c.year, c.month, c.day), rest) := by
  obtain ⟨hy, hm, hd, -⟩ := lt_of_isValid h
  simp only [date?, dateText, List.append_assoc, List.cons_append]
  simp [digits_padded (by decide) hy, digits_padded (by decide) hm, digits_padded (by decide) hd, char?]

/-- The offset as it stands at the end of a text. -/
def offsetPart : Option Int → List Char
  | none => []
  | some 0 => ['Z']
  | some o => offsetText o

theorem text_eq (t : Timestamp) :
    t.text = String.ofList (localText t.clock ++ offsetPart t.clock.offset) := rfl

theorem offset_signed {h m : Nat} (hh : h < 10 ^ 2) (hm : m < 60) (negative : Bool) :
    offset? ((if negative then '-' else '+') :: (padded 2 h ++ ':' :: padded 2 m)) =
      some (some ((if negative then (-1 : Int) else 1) * ((h * 60 + m : Nat) : Int))) := by
  have hrest : digits? 2 (padded 2 m) = some (m, []) := by
    simpa using @digits_padded 2 m (by decide) (by omega) []
  cases negative <;> simp [offset?, digits_padded (by decide) hh, optionalColon, hrest, hm]

theorem offset_offsetText {o : Int} (h : -1440 < o ∧ o < 1440) :
    offset? (offsetText o) = some (some o) := by
  have hsum : o.natAbs / 60 * 60 + o.natAbs % 60 = o.natAbs := by omega
  have key := @offset_signed (o.natAbs / 60) (o.natAbs % 60) (by omega) (by omega) (o < 0)
  rw [hsum] at key
  have htext : offsetText o = (if decide (o < 0) then '-' else '+') ::
      (padded 2 (o.natAbs / 60) ++ ':' :: padded 2 (o.natAbs % 60)) := by
    simp [offsetText]
  rw [htext, key]
  by_cases hneg : o < 0
  · have habs : (o.natAbs : Int) = -o := by omega
    rw [habs]
    simp [hneg]
  · have habs : (o.natAbs : Int) = o := by omega
    rw [habs]
    simp [hneg]

theorem offsetPart_of_ne {o : Int} (h : o ≠ 0) : offsetPart (some o) = offsetText o := by
  unfold offsetPart
  split
  · rename_i heq; cases heq
  · rename_i heq; cases heq; exact absurd rfl h
  · rename_i heq; cases heq; rfl

theorem offset_offsetPart (h : c.isValid = true) :
    offset? (offsetPart c.offset) = some c.offset := by
  simp only [Clock.isValid, Clock.isRegular, Bool.and_eq_true] at h
  have hall := h.2.2
  cases ho : c.offset with
  | none => rfl
  | some o =>
    rw [ho] at hall
    by_cases h0 : o = 0
    · subst h0; rfl
    · rw [offsetPart_of_ne h0]
      exact offset_offsetText (by simpa using hall)

theorem offsetPart_head (o : Option Int) :
    offsetPart o = [] ∨ ∃ d ds, offsetPart o = d :: ds ∧ d.isDigit = false ∧ d ≠ '.' ∧ d ≠ ',' := by
  unfold offsetPart
  split
  · exact .inl rfl
  · exact .inr ⟨_, _, rfl, by decide, by decide, by decide⟩
  · rename_i o _
    rw [offsetText]
    refine .inr ⟨_, _, rfl, ?_⟩
    by_cases h : o < 0
    · rw [if_pos h]; decide
    · rw [if_neg h]; decide

def fractionPart (micro : Nat) : List Char :=
  if micro = 0 then [] else '.' :: padded 6 micro

theorem seconds_fractionPart {s micro : Nat} (hs : s < 10 ^ 2) (hu : micro < 10 ^ 6)
    (o : Option Int) :
    seconds? (':' :: (padded 2 s ++ (fractionPart micro ++ offsetPart o))) =
      some ((s, micro), offsetPart o) := by
  have hhead := offsetPart_head o
  generalize offsetPart o = off at hhead
  simp only [seconds?, digits_padded (by decide) hs, Option.bind_eq_bind, Option.bind_some]
  by_cases h0 : micro = 0
  · subst h0
    rcases hhead with rfl | ⟨d, ds, rfl, -, hp, hc⟩
    · rfl
    · simp [fractionPart, hp, hc]
  · have hall : ∀ c ∈ padded 6 micro, c.isDigit = true :=
      List.all_eq_true.1 (all_isDigit_padded 6 micro)
    have htake : (padded 6 micro ++ off).takeWhile Char.isDigit = padded 6 micro := by
      rw [List.takeWhile_append_of_pos hall]
      rcases hhead with rfl | ⟨d, ds, rfl, hd, -⟩ <;> simp [*]
    have hdrop : (padded 6 micro ++ off).dropWhile Char.isDigit = off := by
      rw [List.dropWhile_append_of_pos hall]
      rcases hhead with rfl | ⟨d, ds, rfl, hd, -⟩ <;> simp [*]
    have hl : (padded 6 micro).length = 6 := length_padded (by decide) hu
    have hne : (padded 6 micro).isEmpty = false := by
      rw [List.isEmpty_eq_false_iff, ← List.length_pos_iff]; omega
    have hmicro : microOf (padded 6 micro) = micro := by
      rw [microOf, List.take_of_length_le (by omega), digitsValue_padded, hl]
      exact Nat.mul_one micro
    simp [fractionPart, h0, htake, hdrop, hne, hmicro]

theorem clock_text (t : Timestamp) : clock? t.text.toList = some t.clock := by
  obtain ⟨c, h⟩ := t
  obtain ⟨-, -, -, hh, hm, hs, hu⟩ := lt_of_isValid h
  have htext : localText c ++ offsetPart c.offset = dateText c ++ 'T' :: (padded 2 c.hour ++ ':' ::
      (padded 2 c.minute ++ ':' :: (padded 2 c.second ++
        (fractionPart c.micro ++ offsetPart c.offset)))) := by
    simp [localText, timeText, fractionPart]
  rw [text_eq, String.toList_ofList, htext]
  simp [clock?, date_dateText h, isDateTimeSeparator, digits_padded (by decide) hh,
    digits_padded (by decide) hm, char?, seconds_fractionPart hs hu, offset_offsetPart h]

theorem read_text (t : Timestamp) : read t.text = .ok t := by
  have hv := t.valid
  have hr : t.clock.isRegular = true := by
    rw [Clock.isValid, Bool.and_eq_true] at hv
    exact hv.2
  rw [read, clock_text]
  simp only [hr, if_true, ofClock?, dif_pos t.valid]

end Provision.Timestamp
