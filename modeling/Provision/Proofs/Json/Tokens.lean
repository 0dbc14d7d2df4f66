import Provision.Json.Printer
import Provision.Json.Reader
import Provision.Proofs.Decimal.Digits

/-!
# Tokens of printed values

The first token of a printed string, number or word is the value that was printed, and what follows it
is what was printed after it. For a number that needs a text behind it that does not go on with the
number (`EndsNumber`).
-/

namespace Provision.Json

theorem hex4_of_control : ∀ n < 32, ∃ a b c d, Text.hex 4 n = [a, b, c, d] ∧
    hex4? a b c d = some n := by
  intro n hn
  refine ⟨_, _, _, _, rfl, ?_⟩
  revert n
  decide

theorem escapeChar_plain {c : Char} (hq : c ≠ '\x22') (hb : c ≠ '\\') (hc : ' ' ≤ c) :
    escapeChar .unicode c = [c] := by
  unfold escapeChar
  split
  all_goals first
    | exact absurd rfl hq
    | exact absurd rfl hb
    | exact absurd hc (by decide)
    | exact if_pos (by simpa [Repertoire.holds] using hc)

theorem stringTail_plain {c : Char} (hq : c ≠ '\x22') (hb : c ≠ '\\') (hc : ' ' ≤ c)
    (acc rest : List Char) :
    stringTail ⟨acc, none⟩ (c :: rest) = stringTail ⟨c :: acc, none⟩ rest := by
  rw [stringTail.eq_def]
  split
  · rename_i h; cases h; exact absurd rfl hq
  · rename_i h; cases h; exact absurd rfl hb
  · rename_i h; cases h; exact absurd rfl hb
  · rename_i h; cases h; rw [if_pos hc]; rfl
  · rename_i h; cases h

theorem pushUnit_control {n : Nat} (hn : n < 32) (acc : List Char) :
    (Pending.mk acc none).pushUnit n = ⟨Char.ofNat n :: acc, none⟩ := by
  have h1 : (0xD800 ≤ n && n < 0xDC00) = false := by simp; omega
  have h2 : (0xDC00 ≤ n && n < 0xE000) = false := by simp; omega
  rw [Pending.pushUnit, h1, h2]
  rfl

theorem stringTail_unit {n : Nat} (hn : n < 32) (acc rest : List Char) :
    stringTail ⟨acc, none⟩ (unit n ++ rest) = stringTail ⟨Char.ofNat n :: acc, none⟩ rest := by
  obtain ⟨a, b, c, d, hx, h4⟩ := hex4_of_control n hn
  rw [unit, hx]
  change stringTail ⟨acc, none⟩ ('\\' :: 'u' :: a :: b :: c :: d :: rest) = _
  rw [stringTail, h4]
  exact congrArg (stringTail · rest) (pushUnit_control hn acc)

theorem stringTail_escapeChar (c : Char) (acc rest : List Char) :
    stringTail ⟨acc, none⟩ (escapeChar .unicode c ++ rest) =
      stringTail ⟨c :: acc, none⟩ rest := by
  by_cases hc : ' ' ≤ c
  · by_cases hq : c = '\x22'
    · subst hq; rfl
    · by_cases hb : c = '\\'
      · subst hb; rfl
      · rw [escapeChar_plain hq hb hc]
        exact stringTail_plain hq hb hc acc rest
  · have hn : c.toNat < 32 := Nat.lt_of_not_le hc
    unfold escapeChar
    split
    -- The controls that have letters of their own, and then all others.
    case h_8 =>
      have h16 : c.toNat < 0x10000 := by omega
      rw [Repertoire.holds, if_neg (by simpa using hc), numbered, if_pos h16,
        stringTail_unit hn, Char.ofNat_toNat]
    all_goals rfl

theorem stringTail_string (s : List Char) (acc rest : List Char) :
    stringTail ⟨acc, none⟩ (s.flatMap (escapeChar .unicode) ++ '\x22' :: rest) =
      some (String.ofList (acc.reverse ++ s), rest) := by
  induction s generalizing acc with
  | nil => rw [List.flatMap_nil, List.nil_append, stringTail, List.append_nil]; rfl
  | cons c s ih =>
    rw [List.flatMap_cons, List.append_assoc, stringTail_escapeChar, ih]
    simp

theorem tokenAt_string (s : String) (rest : List Char) :
    tokenAt? '\x22' ((s.toList.flatMap (escapeChar .unicode) ++ ['\x22']) ++ rest) =
      some (.str s, rest) := by
  rw [List.append_assoc, tokenAt?]
  have hn : named? ('\x22' :: (s.toList.flatMap (escapeChar .unicode) ++ (['\x22'] ++ rest))) = none :=
    rfl
  rw [hn]
  change (stringTail ⟨[], none⟩ (s.toList.flatMap (escapeChar .unicode) ++ '\x22' :: rest)).map _ = _
  rw [stringTail_string]
  simp

/-- A text that does not go on with a number before it. -/
def EndsNumber : List Char → Prop
  | [] => True
  | c :: _ => c.isDigit = false ∧ c ≠ '.' ∧ c ≠ 'e' ∧ c ≠ 'E'

theorem digits_append {ds rest : List Char} (hds : ds.all Char.isDigit = true)
    (hrest : EndsNumber rest) : digits (ds ++ rest) = (ds, rest) := by
  have hds : ∀ c ∈ ds, c.isDigit = true := List.all_eq_true.1 hds
  rw [digits, List.takeWhile_append_of_pos hds, List.dropWhile_append_of_pos hds]
  cases rest with
  | nil => simp
  | cons c rest =>
    have hc : ¬ c.isDigit = true := by simp [hrest.1]
    rw [List.takeWhile_cons_of_neg hc, List.dropWhile_cons_of_neg hc, List.append_nil]

theorem wholeDigits_toDigits {n : Nat} {rest : List Char} (hrest : EndsNumber rest) :
    wholeDigits (Nat.toDigits 10 n ++ rest) = (Nat.toDigits 10 n, rest) := by
  rcases Nat.eq_zero_or_pos n with rfl | hn
  · rfl
  · have hall := Decimal.all_isDigit_toDigits n
    obtain ⟨c, cs, hc, h0⟩ := Decimal.toDigits_eq_cons hn
    rw [wholeDigits.eq_def]
    split
    · rename_i heq
      rw [hc, List.cons_append] at heq
      exact absurd (List.cons.inj heq).1 h0
    · exact digits_append hall hrest

theorem number_toDigits {n : Nat} {rest : List Char} (negative : Bool) (hrest : EndsNumber rest) :
    number? negative (Nat.toDigits 10 n ++ rest) =
      some (.integer negative (Nat.toDigits 10 n), rest) := by
  have hne : (Nat.toDigits 10 n).isEmpty = false := by
    rw [List.isEmpty_eq_false_iff]; exact Nat.toDigits_ne_nil
  have hf : fractionDigits rest = ([], rest) := by
    cases rest with
    | nil => rfl
    | cons c rest =>
      rw [fractionDigits.eq_def]
      split
      · rename_i h; cases h; exact absurd rfl hrest.2.1
      · rfl
  have he : exponent? rest = none := by
    cases rest with
    | nil => rfl
    | cons c rest => simp [exponent?, hrest.2.2.1, hrest.2.2.2]
  simp only [number?, wholeDigits_toDigits hrest, hne, hf, he]
  rfl

theorem named_of_not_start {c : Char} (cs : List Char)
    (h : c ∉ ['n', 't', 'f', 'N', 'I', '-']) : named? (c :: cs) = none := by
  simp only [List.mem_cons, List.not_mem_nil, or_false, not_or] at h
  simp [named?, namedValues, h, Ne.symm]

/-- Behind blanks, if there are any, a text begins with a token, and `rest` follows. -/
def Begins (text : List Char) (t : Token) (rest : List Char) : Prop :=
  ∃ c cs, text.dropWhile isSpace = c :: cs ∧ tokenAt? c cs = some (t, rest)

variable {text rest : List Char} {t : Token}

theorem Begins.of_token {c : Char} {cs : List Char} (hc : isSpace c = false)
    (h : tokenAt? c cs = some (t, rest)) : Begins (c :: cs) t rest :=
  ⟨c, cs, List.dropWhile_cons_of_neg (by simp [hc]), h⟩

theorem Begins.punctuation {c : Char} (hc : isSpace c = false) (h : punctuation? c = some t) :
    Begins (c :: rest) t rest :=
  .of_token hc (by rw [tokenAt?, h])

theorem Begins.string (s : String) (rest : List Char) :
    Begins (string .unicode s ++ rest) (.str s) rest :=
  .of_token (by decide) (tokenAt_string s rest)

theorem isDigit_cases {c : Char} (h : c.isDigit = true) :
    isSpace c = false ∧ punctuation? c = none ∧ c ∉ ['n', 't', 'f', 'N', 'I', '-', '\x22'] := by
  have hc : ∀ n < 10, isSpace (Char.ofNat (48 + n)) = false ∧
      punctuation? (Char.ofNat (48 + n)) = none ∧
      Char.ofNat (48 + n) ∉ ['n', 't', 'f', 'N', 'I', '-', '\x22'] := by decide
  simp only [Char.isDigit, Bool.and_eq_true, decide_eq_true_eq] at h
  have h1 : 48 ≤ c.toNat := h.1
  have h2 : c.toNat ≤ 57 := h.2
  have hn := hc (c.toNat - 48) (by omega)
  rwa [Nat.add_sub_cancel' h1, Char.ofNat_toNat] at hn

theorem Begins.number {c : Char} {cs : List Char} (hd : c.isDigit = true) (negative : Bool)
    (h : number? negative (c :: cs) = some (t, rest)) :
    Begins ((if negative then ['-'] else []) ++ c :: cs) t rest := by
  obtain ⟨hs, hp, hne⟩ := isDigit_cases hd
  cases negative with
  | false =>
    change Begins (c :: cs) t rest
    refine .of_token hs ?_
    have hn : named? (c :: cs) = none := named_of_not_start _ fun h => hne (List.mem_append_left ['\x22'] h)
    simp only [List.mem_cons, List.not_mem_nil, or_false, not_or] at hne
    simp only [tokenAt?, hp, hn, beq_iff_eq, hne, if_false]
    exact h
  | true =>
    change Begins ('-' :: c :: cs) t rest
    refine .of_token (by decide) ?_
    have hn : named? ('-' :: c :: cs) = none := by
      simp only [List.mem_cons, List.not_mem_nil, or_false, not_or] at hne
      simp [named?, namedValues, hne, Ne.symm]
    have hp : punctuation? '-' = none := rfl
    simp only [tokenAt?, hp, hn]
    exact h

/-- A text of digits begins with the number they stand for, and so does one with a sign. -/
theorem Begins.toDigits (n : Nat) (negative : Bool) (hrest : EndsNumber rest) :
    Begins ((if negative then ['-'] else []) ++ (Nat.toDigits 10 n ++ rest))
      (.integer negative (Nat.toDigits 10 n)) rest := by
  obtain ⟨c, cs, hc⟩ := List.exists_cons_of_ne_nil (@Nat.toDigits_ne_nil n 10)
  have hd : c.isDigit = true :=
    List.all_eq_true.1 (Decimal.all_isDigit_toDigits n) c (by rw [hc]; simp)
  have hnum := number_toDigits (n := n) negative hrest
  rw [hc, List.cons_append] at hnum ⊢
  exact .number hd negative hnum

theorem Begins.null (rest : List Char) : Begins ("null".toList ++ rest) (.scalar .null) rest :=
  .of_token (by decide) rfl

theorem Begins.bool (b : Bool) (rest : List Char) :
    Begins ((if b then "true" else "false").toList ++ rest) (.scalar (.bool b)) rest := by
  cases b with
  | false => exact .of_token (c := 'f') (by decide) rfl
  | true => exact .of_token (c := 't') (by decide) rfl

end Provision.Json
