import Mathlib.Data.List.Forall2
import Provision.Proofs.Outcome
import Provision.Step.Action

/-!
# Reading the settings of a step

`reads_of_read`: where settings are read, every declared one has a value in its form, and what is read
are these values under their keys. `lookup_of_read` is the value of one of them.
-/

namespace Provision.Settings

/-- A declared setting and its value. -/
def Reads (config : Members) (d : String × Form) (s : String × Setting) : Prop :=
  s.1 = d.1 ∧ d.2.read (config.get? d.1) = .ok s.2

theorem forall₂_reads {config : Members} (ds : List (String × Form)) :
    let readings := ds.map fun (key, form) => (key, form.read (config.get? key))
    readings.any isTooDeep = false → readings.filterMap (defect? config) = [] →
      List.Forall₂ (Reads config) ds (readings.filterMap value?) := by
  induction ds with
  | nil => intro _ _ _; exact .nil
  | cons d ds ih =>
    obtain ⟨key, form⟩ := d
    simp only [List.map_cons, List.any_cons, Bool.or_eq_false_iff, List.filterMap_cons]
    rintro ⟨h1, h2⟩ h3
    cases hr : form.read (config.get? key) with
    | ok s =>
      rw [hr] at h3
      exact .cons ⟨rfl, hr⟩ (ih h2 h3)
    | error e =>
      rw [hr] at h1 h3
      cases e with
      | tooDeep => cases h1
      | tooManyDigits => cases h3

theorem any_isTooDeep (rooms : Form → Nat) {config : Members} {ds : List (String × Form)} :
    (ds.map fun (key, form) => (key, form.read (config.get? key) (rooms form))).any isTooDeep = true ↔
      ∃ d ∈ ds, d.2.read (config.get? d.1) (rooms d.2) = .error .tooDeep := by
  rw [List.any_map, List.any_eq_true]
  refine exists_congr fun d => and_congr_right fun _ => ?_
  rcases hd : d.2.read (config.get? d.1) (rooms d.2) with (_ | _) | _ <;> simp [isTooDeep, hd]

theorem defects_eq_nil {config : Members} {ds : List (String × Form)}
    (h : ∀ d ∈ ds, ∃ v, d.2.read (config.get? d.1) = .ok v) :
    (ds.map fun (key, form) => (key, form.read (config.get? key))).filterMap (defect? config) = [] := by
  rw [List.filterMap_eq_nil_iff]
  rintro _ hr
  obtain ⟨⟨key, form⟩, hd, rfl⟩ := List.mem_map.1 hr
  obtain ⟨v, hv⟩ := h _ hd
  simp only [hv, defect?]

theorem reads_of_read {k : Kind} {config : Members} {S : Settings} (h : read k config = .ok S) :
    List.Forall₂ (Reads config) k.settings S := by
  have key := @forall₂_reads config k.settings
  simp only [read] at h
  split at h
  · cases h
  · rename_i hdeep
    split at h
    · rename_i hds
      cases h
      exact key (by simpa using hdeep) hds
    · cases h

theorem lookup_of_forall₂ {config : Members} {ds : List (String × Form)} {S : Settings} {key : String}
    {form : Form} (h : List.Forall₂ (Reads config) ds S) (hk : ds.lookup key = some form) :
    ∃ s, S.lookup key = some s ∧ form.read (config.get? key) = .ok s := by
  induction h with
  | nil => cases hk
  | @cons d s ds S hd _ ih =>
    obtain ⟨key', form'⟩ := d
    obtain ⟨key'', s⟩ := s
    obtain ⟨rfl : key'' = key', hr : form'.read (config.get? key'') = .ok s⟩ := hd
    rw [List.lookup_cons] at hk ⊢
    by_cases he : key = key''
    · subst he
      rw [beq_self_eq_true] at hk ⊢
      cases hk
      exact ⟨s, rfl, hr⟩
    · rw [beq_false_of_ne he] at hk ⊢
      exact ih hk

theorem lookup_of_read {k : Kind} {config : Members} {S : Settings} {key : String} {form : Form}
    (h : read k config = .ok S) (hk : k.settings.lookup key = some form) :
    ∃ s, S.lookup key = some s ∧ form.read (config.get? key) = .ok s :=
  lookup_of_forall₂ (reads_of_read h) hk

theorem list_of_read {k : Kind} {config : Members} {S : Settings} {key : String}
    (h : read k config = .ok S) (hk : k.settings.lookup key = some .lines) :
    ((config.get? key).getD .null).lines = .ok (S.list key) := by
  obtain ⟨s, hs, hr⟩ := lookup_of_read h hk
  obtain ⟨ts, hts, rfl⟩ := Except.map_eq_ok.1 hr
  rw [hts, list, hs]

end Provision.Settings
