import Mathlib.Data.List.Nodup
import Mathlib.Data.List.Perm.Basic
import Provision.Json.Basic

/-!
# Lists of pairs as maps

Members of objects, entries of directories and variables are lists of pairs in which a key stands at
most once (`IsKeyed`). On those the order of the pairs has no effect on what is looked up
(`lookup_eq_of_perm`), `put` changes the value of one key, and there is one order by keys
(`sortByKey_eq_of_perm`).
-/

namespace Provision

variable {α β : Type}

/-- No key stands twice. -/
def IsKeyed (ms : List (String × α)) : Prop :=
  (ms.map (·.1)).Nodup

theorem isKeyed_nil : IsKeyed ([] : List (String × α)) := List.nodup_nil

theorem isKeyed_cons {k : String} {v : α} {ms : List (String × α)} :
    IsKeyed ((k, v) :: ms) ↔ k ∉ ms.map (·.1) ∧ IsKeyed ms :=
  List.nodup_cons

theorem not_mem_of_isKeyed_append {k : String} {v : α} {ms ns : List (String × α)}
    (h : IsKeyed (ms ++ (k, v) :: ns)) : k ∉ ms.map (·.1) := by
  intro hk
  rw [IsKeyed, List.map_append, List.map_cons] at h
  exact (List.nodup_append.1 h).2.2 k hk k List.mem_cons_self rfl

theorem isKeyed_of_perm {ms ns : List (String × α)} (h : ms.Perm ns) :
    IsKeyed ms ↔ IsKeyed ns :=
  (h.map _).nodup_iff

theorem isKeyed_map (f : α → β) {ms : List (String × α)} :
    IsKeyed (ms.map fun (k, v) => (k, f v)) ↔ IsKeyed ms := by
  rw [IsKeyed, List.map_map]
  rfl

theorem lookup_cons_eq (k k' : String) (v : α) (ms : List (String × α)) :
    List.lookup k' ((k, v) :: ms) = if k' = k then some v else List.lookup k' ms := by
  rw [List.lookup_cons]
  by_cases h : k' = k
  · rw [if_pos h, beq_iff_eq.2 h]
  · rw [if_neg h, beq_false_of_ne h]

theorem lookup_cons_of_ne {k k' : String} (h : k' ≠ k) (v : α) (ms : List (String × α)) :
    List.lookup k' ((k, v) :: ms) = List.lookup k' ms := by
  rw [lookup_cons_eq, if_neg h]

theorem mem_of_lookup {k : String} {v : α} {ms : List (String × α)} (h : ms.lookup k = some v) :
    (k, v) ∈ ms := by
  obtain ⟨as, bs, rfl, -⟩ := List.lookup_eq_some_iff.1 h
  simp

theorem lookup_eq_none {k : String} {ms : List (String × α)} :
    ms.lookup k = none ↔ k ∉ ms.map (·.1) := by
  rw [List.lookup_eq_none_iff, List.mem_map]
  constructor
  · rintro h ⟨m, hm, rfl⟩
    simpa using h m hm
  · rintro h m hm
    simpa using fun hk => h ⟨m, hm, hk.symm⟩

theorem lookup_of_mem {k : String} {v : α} {ms : List (String × α)} (hk : IsKeyed ms)
    (h : (k, v) ∈ ms) : ms.lookup k = some v := by
  induction ms with
  | nil => cases h
  | cons m ms ih =>
    obtain ⟨k', v'⟩ := m
    obtain ⟨hk', hk⟩ := isKeyed_cons.1 hk
    rcases List.mem_cons.1 h with heq | hin
    · obtain ⟨rfl, rfl⟩ := Prod.mk.inj heq
      exact List.lookup_cons_self
    · have hne : k ≠ k' := by
        rintro rfl
        exact hk' (List.mem_map.2 ⟨(k, v), hin, rfl⟩)
      rw [lookup_cons_of_ne hne, ih hk hin]

theorem lookup_eq_of_perm {ms ns : List (String × α)} (hk : IsKeyed ms) (h : ms.Perm ns)
    (k : String) : ms.lookup k = ns.lookup k := by
  cases hm : ms.lookup k with
  | some v => exact (lookup_of_mem ((isKeyed_of_perm h).1 hk) (h.mem_iff.1 (mem_of_lookup hm))).symm
  | none =>
    rw [lookup_eq_none, (h.map _).mem_iff] at hm
    exact (lookup_eq_none.2 hm).symm

theorem perm_of_lookup_eq {ms ns : List (String × α)} (hm : IsKeyed ms) (hn : IsKeyed ns)
    (h : ∀ k, ms.lookup k = ns.lookup k) : ms.Perm ns := by
  refine (List.perm_ext_iff_of_nodup (List.Nodup.of_map _ hm) (List.Nodup.of_map _ hn)).2 fun ⟨k, v⟩ => ?_
  constructor
  · intro hmem
    exact mem_of_lookup ((h k).symm.trans (lookup_of_mem hm hmem))
  · intro hmem
    exact mem_of_lookup ((h k).trans (lookup_of_mem hn hmem))

theorem lookup_map (f : α → β) (k : String) (ms : List (String × α)) :
    (ms.map fun (k, v) => (k, f v)).lookup k = (ms.lookup k).map f := by
  induction ms with
  | nil => rfl
  | cons m ms ih =>
    obtain ⟨k₀, v₀⟩ := m
    rw [List.map_cons, lookup_cons_eq, lookup_cons_eq, ih]
    split <;> rfl

/-! ### Setting a value -/

theorem lookup_put (k k' : String) (v : α) (ms : List (String × α)) :
    (put k v ms).lookup k' = if k' = k then some v else ms.lookup k' := by
  induction ms with
  | nil => rw [put, lookup_cons_eq]
  | cons m ms ih =>
    obtain ⟨k₀, v₀⟩ := m
    rw [put]
    by_cases h₀ : k₀ = k
    · subst h₀
      rw [if_pos rfl]
      rw [lookup_cons_eq, lookup_cons_eq]
      by_cases h : k' = k₀
      · rw [if_pos h, if_pos h]
      · rw [if_neg h, if_neg h, if_neg h]
    · rw [if_neg h₀]
      by_cases h : k' = k₀
      · subst h
        rw [List.lookup_cons_self, List.lookup_cons_self, if_neg h₀]
      · rw [lookup_cons_of_ne h, lookup_cons_of_ne h, ih]

theorem put_put (k : String) (v v' : α) (ms : List (String × α)) :
    put k v (put k v' ms) = put k v ms := by
  induction ms with
  | nil => simp only [put, if_pos]
  | cons m ms ih =>
    obtain ⟨k₀, v₀⟩ := m
    by_cases h : k₀ = k
    · simp only [put, if_pos h]
    · simp only [put, if_neg h, ih]

theorem put_self {k : String} {v : α} {ms : List (String × α)} (h : ms.lookup k = some v) :
    put k v ms = ms := by
  induction ms with
  | nil => cases h
  | cons m ms ih =>
    obtain ⟨k₀, v₀⟩ := m
    rw [lookup_cons_eq] at h
    by_cases hk : k = k₀
    · rw [if_pos hk] at h
      rw [put, if_pos hk.symm, Option.some.inj h]
    · rw [if_neg hk] at h
      rw [put, if_neg (Ne.symm hk), ih h]

theorem put_map (f : α → β) (k : String) (v : α) (ms : List (String × α)) :
    put k (f v) (ms.map fun (k, v) => (k, f v)) = (put k v ms).map fun (k, v) => (k, f v) := by
  induction ms with
  | nil => rfl
  | cons m ms ih =>
    obtain ⟨k₀, v₀⟩ := m
    by_cases h : k₀ = k
    · simp only [List.map_cons, put, if_pos h]
    · simp only [List.map_cons, put, if_neg h, ih]

theorem put_of_not_mem {k : String} {ms : List (String × α)} (v : α) (h : k ∉ ms.map (·.1)) :
    put k v ms = ms ++ [(k, v)] := by
  induction ms with
  | nil => rfl
  | cons m ms ih =>
    rw [List.map_cons, List.mem_cons, not_or] at h
    rw [put, if_neg (Ne.symm h.1), ih h.2, List.cons_append]

theorem keys_put (k : String) (v : α) (ms : List (String × α)) :
    (put k v ms).map (·.1) = if k ∈ ms.map (·.1) then ms.map (·.1) else ms.map (·.1) ++ [k] := by
  induction ms with
  | nil => rfl
  | cons m ms ih =>
    obtain ⟨k₀, v₀⟩ := m
    by_cases h₀ : k₀ = k
    · simp [put, h₀]
    · rw [put, if_neg h₀, List.map_cons, ih, List.map_cons]
      by_cases h : k ∈ ms.map (·.1) <;> simp [h, Ne.symm h₀]

theorem isKeyed_put (k : String) (v : α) {ms : List (String × α)} (h : IsKeyed ms) :
    IsKeyed (put k v ms) := by
  rw [IsKeyed, keys_put]
  split
  · exact h
  · rename_i hk
    exact List.nodup_append.2 ⟨h, List.nodup_singleton k, fun a ha b hb hab => by
      rw [List.mem_singleton.1 hb] at hab
      exact hk (hab ▸ ha)⟩

theorem mem_put {k : String} {v : α} {m : String × α} {ms : List (String × α)}
    (h : m ∈ put k v ms) : m = (k, v) ∨ m ∈ ms := by
  induction ms with
  | nil => exact .inl (List.mem_singleton.1 h)
  | cons m' ms ih =>
    rw [put] at h
    split at h
    · rename_i hk
      rcases List.mem_cons.1 h with h | h
      · exact .inl (hk ▸ h)
      · exact .inr (List.mem_cons_of_mem _ h)
    · rcases List.mem_cons.1 h with h | h
      · exact .inr (h ▸ List.mem_cons_self)
      · exact (ih h).imp_right (List.mem_cons_of_mem _)

theorem sortByKey_perm (ms : List (String × α)) : (sortByKey ms).Perm ms :=
  List.mergeSort_perm _ _

theorem mem_sortByKey {m : String × α} {ms : List (String × α)} : m ∈ sortByKey ms ↔ m ∈ ms :=
  (sortByKey_perm ms).mem_iff

theorem isKeyed_sortByKey {ms : List (String × α)} : IsKeyed (sortByKey ms) ↔ IsKeyed ms :=
  isKeyed_of_perm (sortByKey_perm ms)

theorem pairwise_sortByKey (ms : List (String × α)) :
    (sortByKey ms).Pairwise fun a b => a.1 ≤ b.1 := by
  have h := @List.pairwise_mergeSort _ (fun a b : String × α => decide (a.1 ≤ b.1))
    (fun a b c hab hbc => by
      simp only [decide_eq_true_eq] at hab hbc ⊢
      exact String.le_trans hab hbc)
    (fun a b => by simpa using String.le_total a.1 b.1) ms
  exact h.imp fun hab => by simpa using hab

theorem eq_of_pairwise {ms ns : List (String × α)} (h : ms.Perm ns) (hk : IsKeyed ms)
    (hm : ms.Pairwise fun a b => a.1 ≤ b.1) (hn : ns.Pairwise fun a b => a.1 ≤ b.1) : ms = ns := by
  refine h.eq_of_pairwise (fun a b ha hb hab hba => ?_) hm hn
  have hkey : a.1 = b.1 := String.le_antisymm hab hba
  obtain ⟨k, v⟩ := a
  obtain ⟨k', v'⟩ := b
  obtain rfl : k = k' := hkey
  have hv := (lookup_of_mem hk ha).symm.trans (lookup_of_mem hk (h.mem_iff.2 hb))
  rw [Option.some.inj hv]

theorem sortByKey_eq_of_perm {ms ns : List (String × α)} (h : ms.Perm ns) (hk : IsKeyed ms) :
    sortByKey ms = sortByKey ns :=
  eq_of_pairwise ((sortByKey_perm ms).trans (h.trans (sortByKey_perm ns).symm))
    (isKeyed_sortByKey.2 hk) (pairwise_sortByKey ms) (pairwise_sortByKey ns)

theorem lookup_sortByKey {ms : List (String × α)} (hk : IsKeyed ms) (k : String) :
    (sortByKey ms).lookup k = ms.lookup k :=
  lookup_eq_of_perm (isKeyed_sortByKey.2 hk) (sortByKey_perm ms) k

theorem sortByKey_map (f : α → β) (ms : List (String × α)) :
    sortByKey (ms.map fun (k, v) => (k, f v)) = (sortByKey ms).map fun (k, v) => (k, f v) := by
  let le {γ : Type} (a b : String × γ) : Bool := decide (a.1 ≤ b.1)
  have h := @List.map_mergeSort _ _ le le (fun (k, v) => (k, f v)) ms fun _ _ _ _ => rfl
  exact h.symm

end Provision
