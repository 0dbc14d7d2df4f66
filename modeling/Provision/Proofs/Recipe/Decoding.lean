import Provision.Proofs.Json.Reading
import Provision.Proofs.Recipe.RoundTrip

/-!
# What is read from a document

`wellKeyed_of_ofJson`: a recipe that is read from a value without doubled keys has distinct names of
variables and distinct keys in its settings. A record is good only when each of its parts is, so the
lemmas go from the record to the members that its parts were read from.
-/

namespace Provision

theorem Checked.map_eq_ok {α β : Type} {f : α → β} {x : Checked α} {b : β} :
    f <$> x = .ok b ↔ ∃ a, x = .ok a ∧ f a = b := by
  cases x with
  | ok a => exact ⟨fun h => ⟨a, rfl, by injection h⟩, fun ⟨_, h, hb⟩ => by cases h; rw [← hb]; rfl⟩
  | bad ds => exact ⟨fun h => (nomatch h), fun ⟨_, h, _⟩ => (nomatch h)⟩

theorem Checked.seq_eq_ok {α β : Type} {f : Checked (α → β)} {x : Checked α} {b : β} :
    f <*> x = .ok b ↔ ∃ g a, f = .ok g ∧ x = .ok a ∧ g a = b := by
  cases f with
  | ok g =>
    cases x with
    | ok a =>
      exact ⟨fun h => ⟨g, a, rfl, rfl, by injection h⟩,
        fun ⟨_, _, hg, ha, hb⟩ => by cases hg; cases ha; rw [← hb]; rfl⟩
    | bad ds => exact ⟨fun h => (nomatch h), fun ⟨_, _, _, h, _⟩ => nomatch h⟩
  | bad ds =>
    cases x with
    | ok a => exact ⟨fun h => (nomatch h), fun ⟨_, _, h, _⟩ => nomatch h⟩
    | bad es => exact ⟨fun h => (nomatch h), fun ⟨_, _, h, _⟩ => nomatch h⟩

theorem Checked.under_eq_ok {α : Type} {p : Place} {x : Checked α} {a : α} :
    x.under p = .ok a ↔ x = .ok a := by
  cases x <;> simp [under]

namespace Decode

variable {α : Type} {ms : Members} {read : Json → Checked α}

theorem record_eq_ok {name : String} {readRecord : Members → Checked α} {v : Json} {a : α}
    (h : record name readRecord v = .ok a) : ∃ ms, v = .obj ms ∧ readRecord ms = .ok a := by
  unfold record at h
  split at h
  · exact ⟨_, rfl, h⟩
  · cases h

theorem field_eq_ok {key : String} {a default : α} (h : field ms key default read = .ok a) :
    a = default ∨ ∃ v, (key, v) ∈ ms ∧ read v = .ok a := by
  unfold field at h
  split at h
  · cases h; exact .inl rfl
  · rename_i v hv
    exact .inr ⟨v, mem_of_lookup hv, Checked.under_eq_ok.1 h⟩

theorem items_eq_ok {vs : List Json} {i : Nat} {xs : List α} (h : items read i vs = .ok xs) :
    ∀ x ∈ xs, ∃ v ∈ vs, read v = .ok x := by
  induction vs generalizing i xs with
  | nil => cases h; exact fun x hx => nomatch hx
  | cons v vs ih =>
    rw [items, Checked.seq_eq_ok] at h
    obtain ⟨g, rest, hg, hrest, rfl⟩ := h
    obtain ⟨x, hx, rfl⟩ := Checked.map_eq_ok.1 hg
    intro y hy
    rcases List.mem_cons.1 hy with rfl | hy
    · exact ⟨v, List.mem_cons_self, Checked.under_eq_ok.1 hx⟩
    · obtain ⟨w, hw, hr⟩ := ih hrest y hy
      exact ⟨w, List.mem_cons_of_mem v hw, hr⟩

theorem keys_of_entries {ps : List (String × α)} (h : entries read ms = .ok ps) :
    ps.map (·.1) = ms.map (·.1) := by
  induction ms generalizing ps with
  | nil => cases h; rfl
  | cons m ms ih =>
    obtain ⟨k, v⟩ := m
    rw [entries, Checked.seq_eq_ok] at h
    obtain ⟨g, rest, hg, hrest, rfl⟩ := h
    obtain ⟨a, -, rfl⟩ := Checked.map_eq_ok.1 hg
    simp [ih hrest]

theorem orEmpty_eq_ok {readAll : Json → Checked (List α)} {v : Json} {xs : List α}
    (h : orEmpty readAll v = .ok xs) : xs = [] ∨ readAll v = .ok xs := by
  unfold orEmpty at h
  split at h
  · cases h; exact .inl rfl
  · exact .inr h

theorem object_eq_ok {v : Json} {ps : List (String × α)} (h : object read v = .ok ps) :
    ∃ ms, v = .obj ms ∧ entries read ms = .ok ps := by
  unfold object at h
  split at h
  · exact ⟨_, rfl, h⟩
  · cases h

theorem list_eq_ok {v : Json} {xs : List α} (h : list read v = .ok xs) :
    ∃ vs, v = .arr vs ∧ items read 0 vs = .ok xs := by
  unfold list at h
  split at h
  · exact ⟨_, rfl, h⟩
  · cases h

end Decode

open Decode

theorem Step.wellKeyed_of_ofJson {v : Json} {s : Step} (hv : v.WellKeyed)
    (h : Step.ofJson v = .ok s) : (Json.obj s.config).WellKeyed := by
  obtain ⟨ms, rfl, h⟩ := record_eq_ok h
  obtain ⟨g, config, hg, hconfig, rfl⟩ := Checked.seq_eq_ok.1 h
  obtain ⟨g', type, hg', -, rfl⟩ := Checked.seq_eq_ok.1 hg
  obtain ⟨g'', name, hg'', -, rfl⟩ := Checked.seq_eq_ok.1 hg'
  obtain ⟨id, -, rfl⟩ := Checked.map_eq_ok.1 hg''
  change (Json.obj config).WellKeyed
  have hempty : (Json.obj []).WellKeyed := Json.wellKeyed_obj.2 ⟨isKeyed_nil, List.forall_mem_nil _⟩
  rcases field_eq_ok hconfig with rfl | ⟨w, hw, hr⟩
  · exact hempty
  · rcases orEmpty_eq_ok hr with rfl | hr
    · exact hempty
    · obtain ⟨ws, rfl, he⟩ := object_eq_ok hr
      rw [entries_raw] at he
      cases he
      exact (Json.wellKeyed_obj.1 hv).2 _ hw

theorem Recipe.wellKeyed_of_ofJson {now : Timestamp} {v : Json} {r : Recipe} (hv : v.WellKeyed)
    (h : Recipe.ofJson now v = .ok r) : r.WellKeyed := by
  obtain ⟨ms, rfl, h⟩ := record_eq_ok h
  have hv := (Json.wellKeyed_obj.1 hv).2
  obtain ⟨g, updatedAt, hg, -, rfl⟩ := Checked.seq_eq_ok.1 h
  obtain ⟨g', steps, hg', hsteps, rfl⟩ := Checked.seq_eq_ok.1 hg
  obtain ⟨g'', vars, hg'', hvars, rfl⟩ := Checked.seq_eq_ok.1 hg'
  obtain ⟨g₃, project, hg₃, -, rfl⟩ := Checked.seq_eq_ok.1 hg''
  obtain ⟨schema, -, rfl⟩ := Checked.map_eq_ok.1 hg₃
  constructor
  · change IsKeyed vars
    rcases field_eq_ok hvars with rfl | ⟨w, hw, hr⟩
    · exact isKeyed_nil
    · rcases orEmpty_eq_ok hr with rfl | hr
      · exact isKeyed_nil
      · obtain ⟨ws, rfl, he⟩ := object_eq_ok hr
        rw [IsKeyed, keys_of_entries he]
        exact (Json.wellKeyed_obj.1 (hv _ hw)).1
  · change ∀ s ∈ steps, (Json.obj s.config).WellKeyed
    rcases field_eq_ok hsteps with rfl | ⟨w, hw, hr⟩
    · exact List.forall_mem_nil _
    · rcases orEmpty_eq_ok hr with rfl | hr
      · exact List.forall_mem_nil _
      · obtain ⟨ws, rfl, he⟩ := list_eq_ok hr
        intro s hs
        obtain ⟨x, hx, hs⟩ := items_eq_ok he s hs
        exact Step.wellKeyed_of_ofJson (Json.wellKeyed_arr.1 (hv _ hw) x hx) hs

end Provision
