import Provision.Proofs.Json.Continuing
import Provision.Proofs.Json.Reading

/-!
# How a text begins that is read

The first character of a text that is read is a plain one, and the second is no null character
(`leads_of_read`). This is what the encoding of a document is told by. And what is read where so many calls may be made
inside each other is read wherever there is room for it (`read_within`).
-/

namespace Provision.Json

variable {limits : Limits} {s s' : State} {stack : List Frame} {cs rest : List Char} {c : Char} {t : Token} {v : Json}

/-- A character of one byte, but not the null character. -/
def IsPlainChar (c : Char) : Prop :=
  0 < c.toNat ∧ c.toNat < 128

theorem isPlainChar_of_isDigit (h : c.isDigit = true) : IsPlainChar c := by
  simp only [Char.isDigit, Bool.and_eq_true, decide_eq_true_eq] at h
  have h1 : 48 ≤ c.toNat := h.1
  have h2 : c.toNat ≤ 57 := h.2
  exact ⟨by omega, by omega⟩

theorem isPlainChar_of_isSpace (h : isSpace c = true) : IsPlainChar c := by
  simp only [isSpace, Bool.or_eq_true, beq_iff_eq] at h
  rcases h with ((rfl | rfl) | rfl) | rfl <;> exact ⟨by decide, by decide⟩

theorem named_eq_some {x : Token × List Char} (h : named? (c :: cs) = some x) :
    ∃ word ∈ namedValues.map (·.1), word.toList <+: c :: cs := by
  obtain ⟨⟨word, value⟩, hmem, hword⟩ := List.exists_of_findSome?_eq_some h
  dsimp only at hword
  split at hword
  · rename_i hprefix
    exact ⟨word, List.mem_map_of_mem hmem, List.isPrefixOf_iff_prefix.1 hprefix⟩
  · cases hword

theorem plain_of_named {x : Token × List Char} (h : named? (c :: cs) = some x) :
    IsPlainChar c ∧ ∃ d ds, cs = d :: ds ∧ d ≠ '\x00' := by
  obtain ⟨word, hmem, hprefix⟩ := named_eq_some h
  have hwords : ∀ word ∈ namedValues.map (·.1), ∃ a b ds, word.toList = a :: b :: ds ∧ IsPlainChar a ∧
      b ≠ '\x00' := by
    simp only [namedValues, List.map_cons, List.map_nil, List.forall_mem_cons]
    refine ⟨?_, ?_, ?_, ?_, ?_, ?_, List.forall_mem_nil _⟩ <;>
      exact ⟨_, _, _, rfl, ⟨by decide, by decide⟩, by decide⟩
  obtain ⟨a, b, ds, hchars, ha, hb⟩ := hwords word hmem
  rw [hchars] at hprefix
  obtain ⟨rfl, hrest⟩ := List.cons_prefix_cons.1 hprefix
  obtain ⟨more, rfl⟩ := hrest
  exact ⟨ha, b, ds ++ more, rfl, hb⟩

theorem digit_of_number {negative : Bool} {x : Token × List Char} (h : number? negative (c :: cs) = some x) :
    c.isDigit = true := by
  by_contra hc
  have hzero : c ≠ '0' := by
    rintro rfl
    exact hc (by decide)
  have hwhole : (wholeDigits (c :: cs)).1 = [] := by
    rw [wholeDigits]
    · rw [digits, List.takeWhile_cons_of_neg hc]
    · rintro cs' heq
      cases heq
      exact hzero rfl
  simp only [number?, hwhole, List.isEmpty_nil, if_true] at h
  cases h

theorem tokenAt_cases {x : Token × List Char} (h : tokenAt? c cs = some x) :
    (∃ t, punctuation? c = some t ∧ x = (t, cs)) ∨ named? (c :: cs) = some x ∨
      (c = '\x22' ∧ ∃ s rest, stringTail ⟨[], none⟩ cs = some (s, rest)) ∨
      (c = '-' ∧ number? true cs = some x) ∨ number? false (c :: cs) = some x := by
  unfold tokenAt? at h
  split at h
  · rename_i hp
    cases h
    exact .inl ⟨_, hp, rfl⟩
  · rename_i hn
    exact .inr (.inl (hn.trans h))
  · split at h
    · rename_i hquote
      obtain ⟨⟨s, rest⟩, hs, -⟩ := Option.map_eq_some_iff.1 h
      exact .inr (.inr (.inl ⟨beq_iff_eq.1 hquote, s, rest, hs⟩))
    · split at h
      · rename_i hminus
        exact .inr (.inr (.inr (.inl ⟨beq_iff_eq.1 hminus, h⟩)))
      · exact .inr (.inr (.inr (.inr h)))

theorem isPlainChar_of_token {x : Token × List Char} (h : tokenAt? c cs = some x) : IsPlainChar c := by
  rcases tokenAt_cases h with ⟨t, ht, -⟩ | h | ⟨rfl, -⟩ | ⟨rfl, -⟩ | h
  · unfold punctuation? at ht
    split at ht
    case h_7 => cases ht
    all_goals exact ⟨by decide, by decide⟩
  · exact (plain_of_named h).1
  · exact ⟨by decide, by decide⟩
  · exact ⟨by decide, by decide⟩
  · exact isPlainChar_of_isDigit (digit_of_number h)

theorem tokenAt_nul (cs : List Char) : tokenAt? '\x00' cs = none := by
  cases h : tokenAt? '\x00' cs with
  | none => rfl
  | some x => exact absurd (isPlainChar_of_token h).1 (by decide)

theorem run_nul (s : State) (cs : List Char) : run limits s ('\x00' :: cs) = .error .malformed :=
  run_of_no_token (List.dropWhile_cons_of_neg (by decide)) (tokenAt_nul cs) s

theorem stringTail_nul (p : Pending) (cs : List Char) : stringTail p ('\x00' :: cs) = none := by
  rw [stringTail.eq_def]
  split
  case h_4 =>
    rename_i heq
    cases heq
    exact if_neg (by decide)
  all_goals
    rename_i heq
    cases heq

theorem wholeDigits_nul (hc : c.isDigit = true) : wholeDigits (c :: '\x00' :: cs) = ([c], '\x00' :: cs) := by
  unfold wholeDigits
  split
  · rename_i heq
    cases heq
    rfl
  · rw [digits, List.takeWhile_cons_of_pos hc, List.dropWhile_cons_of_pos hc]
    rfl

theorem rest_of_token_nul (h : tokenAt? c ('\x00' :: cs) = some (t, rest)) : rest = '\x00' :: cs := by
  rcases tokenAt_cases h with ⟨t, -, hx⟩ | h | ⟨-, s, rest', hs⟩ | ⟨-, h⟩ | h
  · cases hx
    rfl
  · obtain ⟨-, d, ds, heq, hd⟩ := plain_of_named h
    cases heq
    exact absurd rfl hd
  · rw [stringTail_nul] at hs
    cases hs
  · exact absurd (digit_of_number h) (by decide)
  · rw [number?, wholeDigits_nul (digit_of_number h)] at h
    cases h
    rfl

theorem run_second_nul (s : State) : ∃ e, run limits s (c :: '\x00' :: cs) = .error e := by
  by_cases hc : isSpace c = true
  · have hd : (c :: '\x00' :: cs).dropWhile isSpace = '\x00' :: cs := by
      rw [List.dropWhile_cons_of_pos hc, List.dropWhile_cons_of_neg (by decide)]
    exact ⟨_, run_of_no_token hd (tokenAt_nul cs) s⟩
  · have hd : (c :: '\x00' :: cs).dropWhile isSpace = c :: '\x00' :: cs := List.dropWhile_cons_of_neg hc
    rcases ht : tokenAt? c ('\x00' :: cs) with _ | ⟨t, rest⟩
    · exact ⟨_, run_of_no_token hd ht s⟩
    · rw [run_of_begins ⟨c, _, hd, ht⟩, rest_of_token_nul ht]
      rcases step limits s t with e | s'
      · exact ⟨e, rfl⟩
      · exact ⟨_, run_nul s' cs⟩

theorem leads_of_read {text : String} (h : read limits text = .ok v) :
    ∃ c cs, text.toList = c :: cs ∧ IsPlainChar c ∧ ∀ ds, cs ≠ '\x00' :: ds := by
  rw [read] at h
  generalize text.toList = chars at h
  rcases chars with _ | ⟨c, cs⟩
  · rw [run.eq_def] at h
    cases h
  · refine ⟨c, cs, rfl, ?_, ?_⟩
    · by_cases hc : isSpace c = true
      · exact isPlainChar_of_isSpace hc
      · rcases ht : tokenAt? c cs with _ | x
        · rw [run_of_no_token (List.dropWhile_cons_of_neg hc) ht] at h
          cases h
        · exact isPlainChar_of_token ht
    · rintro ds rfl
      obtain ⟨e, he⟩ : ∃ e, run limits (.value []) (c :: '\x00' :: ds) = .error e := run_second_nul _
      cases he.symm.trans h

theorem startValue_within {n : Nat} (h : startValue (.within n) stack t = .ok s') (m : Nat) :
    startValue (.within m) stack t = .ok s' ∨ startValue (.within m) stack t = .error .tooDeep := by
  unfold startValue at h ⊢
  split at h
  · exact .inl h
  · exact .inl h
  · exact .inl h
  · split at h <;> cases h
    exact (ite_eq_or_eq _ _ _).imp id id
  · split at h <;> cases h
    exact (ite_eq_or_eq _ _ _).imp id id
  · cases h

theorem step_within {n : Nat} (h : step (.within n) s t = .ok s') (m : Nat) :
    step (.within m) s t = .ok s' ∨ step (.within m) s t = .error .tooDeep := by
  unfold step at h ⊢
  split at h
  · exact startValue_within h m
  · exact .inl h
  · exact startValue_within h m
  all_goals exact .inl h

theorem run_of_blank {text : List Char} {v : Json} (hd : text.dropWhile isSpace = []) :
    run limits (.finished v) text = .ok v := by
  rw [run.eq_def]
  split
  · rfl
  · rename_i heq
    rw [hd] at heq
    cases heq

theorem run_within {n : Nat} {text : List Char} {v : Json} (h : run (.within n) s text = .ok v) (m : Nat) :
    run (.within m) s text = .ok v ∨ run (.within m) s text = .error .tooDeep := by
  fun_induction run (.within n) s text with
  | case1 text hd =>
    cases h
    exact .inl (run_of_blank hd)
  | case2 => cases h
  | case3 => cases h
  | case4 => cases h
  | case5 s text c cs hd t rest ht next hstep ih =>
    rw [run_of_begins ⟨c, cs, hd, ht⟩]
    rcases step_within hstep m with hstep' | hstep' <;> rw [hstep']
    · exact ih h
    · exact .inr rfl

theorem read_within {n : Nat} {text : String} {v : Json} (h : read (.within n) text = .ok v) (m : Nat) :
    read (.within m) text = .ok v ∨ read (.within m) text = .error .tooDeep :=
  run_within h m

end Provision.Json
