import Provision.Text.Blank

/-!
# Cutting a text at separators

`pieces p` is inverse to joining: no piece holds a separator, a text without separators is one piece,
and the pieces of two texts with a separator between them are the pieces of both.
-/

namespace Provision.Text

variable {p : Char → Bool}

theorem pieces_ne_nil (cs : List Char) : pieces p cs ≠ [] := by
  unfold pieces
  split
  · simp
  · split
    · simp
    · split <;> simp

theorem pieces_cons_of_not {c : Char} {cs w : List Char} {ws : List (List Char)} (hc : p c = false)
    (h : pieces p cs = w :: ws) : pieces p (c :: cs) = (c :: w) :: ws := by
  rw [pieces, hc, h]; rfl

theorem pieces_cons_sep {c : Char} (hc : p c = true) (cs : List Char) :
    pieces p (c :: cs) = [] :: pieces p cs := by
  rw [pieces, if_pos hc]

theorem pieces_eq_singleton {cs : List Char} (h : ∀ c ∈ cs, p c = false) : pieces p cs = [cs] := by
  induction cs with
  | nil => rfl
  | cons c cs ih =>
    exact pieces_cons_of_not (h c (by simp)) (ih fun c' hc' => h c' (by simp [hc']))

theorem pieces_append_sep {c : Char} (hc : p c = true) (as bs : List Char) :
    pieces p (as ++ c :: bs) = pieces p as ++ pieces p bs := by
  induction as with
  | nil => exact pieces_cons_sep hc bs
  | cons a as ih =>
    rw [List.cons_append]
    cases ha : p a with
    | true => rw [pieces_cons_sep ha, pieces_cons_sep ha, ih, List.cons_append]
    | false =>
      obtain ⟨w, ws, hw⟩ := List.exists_cons_of_ne_nil (pieces_ne_nil (p := p) as)
      rw [pieces_cons_of_not ha hw]
      rw [hw] at ih
      exact pieces_cons_of_not ha ih

theorem not_sep_of_mem_pieces {cs w : List Char} (h : w ∈ pieces p cs) : ∀ c ∈ w, p c = false := by
  induction cs generalizing w with
  | nil => simp [pieces] at h; simp [h]
  | cons c cs ih =>
    cases hc : p c with
    | true =>
      rw [pieces_cons_sep hc, List.mem_cons] at h
      rcases h with rfl | h
      · simp
      · exact ih h
    | false =>
      obtain ⟨v, vs, hv⟩ := List.exists_cons_of_ne_nil (pieces_ne_nil (p := p) cs)
      rw [pieces_cons_of_not hc hv, List.mem_cons] at h
      rcases h with rfl | h
      · intro d hd
        rcases List.mem_cons.1 hd with rfl | hd
        · exact hc
        · exact ih (by rw [hv]; simp) d hd
      · exact ih (by rw [hv]; simp [h])

/-- Pieces that are ended by the separator each give the text with a separator at its end. -/
theorem flatMap_pieces (sep : Char) (cs : List Char) :
    (pieces (fun c => c = sep) cs).flatMap (fun w => w ++ [sep]) = cs ++ [sep] := by
  induction cs with
  | nil => rfl
  | cons c cs ih =>
    by_cases hc : c = sep
    · rw [pieces_cons_sep (by simpa using hc), List.flatMap_cons, ih, hc]; rfl
    · obtain ⟨w, ws, hw⟩ := List.exists_cons_of_ne_nil (pieces_ne_nil (p := fun c => c = sep) cs)
      rw [pieces_cons_of_not (by simpa using hc) hw]
      rw [hw] at ih
      rw [List.flatMap_cons] at ih ⊢
      rw [List.cons_append, List.cons_append, ih]
      rfl

end Provision.Text
