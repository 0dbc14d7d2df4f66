import Provision.Decimal.Text

/-!
# Digits of natural numbers

The digits that are written for a number are digits, have no zero in front, and read back as the number
(`digitsValue_toDigits`). Hence different numbers have different texts.
-/

namespace Provision.Decimal

theorem digitsValue_eq (ds : List Char) : digitsValue ds = Nat.ofDigitChars 10 ds 0 := by
  rw [Nat.ofDigitChars_eq_foldl]; rfl

theorem digitsValue_toDigits (n : Nat) : digitsValue (Nat.toDigits 10 n) = n := by
  rw [digitsValue_eq, Nat.ofDigitChars_ten_toDigits]

theorem all_isDigit_toDigits (n : Nat) : (Nat.toDigits 10 n).all Char.isDigit = true :=
  List.all_eq_true.2 fun _ h => Nat.isDigit_of_mem_toDigits (by decide) (by decide) h

theorem toDigits_inj {m n : Nat} (h : Nat.toDigits 10 m = Nat.toDigits 10 n) : m = n := by
  rw [← digitsValue_toDigits m, h, digitsValue_toDigits]

theorem digitChar_ne_zero : ∀ n, n < 10 → 0 < n → n.digitChar ≠ '0' := by decide

theorem toDigits_eq_cons {n : Nat} (hn : 0 < n) :
    ∃ c cs, Nat.toDigits 10 n = c :: cs ∧ c ≠ '0' := by
  induction n using Nat.strongRecOn with
  | _ n ih =>
    rcases Nat.lt_or_ge n 10 with h | h
    · exact ⟨_, [], Nat.toDigits_of_lt_base h, digitChar_ne_zero n h hn⟩
    · obtain ⟨c, cs, hc, h0⟩ := ih (n / 10) (by omega) (by omega)
      exact ⟨c, cs ++ [(n % 10).digitChar], by
        rw [Nat.toDigits_of_base_le (by decide) h, hc, List.cons_append], h0⟩

theorem toList_intText_nat (n : Nat) : (intText n).toList = Nat.toDigits 10 n := by
  have hn : ¬ ((n : Int) < 0) := by omega
  rw [intText, String.toList_ofList, if_neg hn, List.nil_append, Int.natAbs_natCast]

theorem intText_nat_inj {m n : Nat} (h : intText m = intText n) : m = n := by
  rw [← String.toList_inj, toList_intText_nat, toList_intText_nat] at h
  exact toDigits_inj h

end Provision.Decimal
