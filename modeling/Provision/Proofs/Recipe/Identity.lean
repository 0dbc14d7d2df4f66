import Provision.Proofs.Json.Continuing
import Provision.Proofs.Recipe.Decoding

/-!
# Whose recipe a text is

`project_of_read`: where the canonical text of a recipe is read as a recipe at all, it is read as one of the same
project, whatever the settings of its steps hold.
-/

namespace Provision.Recipe

open Json

variable {r r' : Recipe} {v : Json} {now : Timestamp}

theorem project_mem_wire {order : Members → Members} (h : r.wireWith order = .ok v) :
    ∃ ms, v = .obj ms ∧ IsKeyed ms ∧ ("project", r.project.wire) ∈ ms := by
  rw [wireWith] at h
  split at h
  · cases h
  · cases h
    exact ⟨_, rfl, by simp [IsKeyed], by simp⟩

theorem plainWithin_project (p : Project) : PlainWithin 2 p.wire := by
  have htarget : PlainWithin 1 (.arr (p.target.map .str)) := by
    refine .arr fun x hx => ?_
    obtain ⟨t, -, rfl⟩ := List.mem_map.1 hx
    exact .str t
  refine .obj (by simp [IsKeyed]) ?_
  simp only [List.forall_mem_cons]
  exact ⟨.str _, .str _, .str _, htarget, List.forall_mem_nil _⟩

theorem project_of_ofJson {ms : Members} {p : Project} (hms : ms.get? "project" = some p.wire)
    (h : Recipe.ofJson now (.obj ms) = .ok r') : r'.project = p := by
  obtain ⟨ms', he, h⟩ := Decode.record_eq_ok h
  cases he
  obtain ⟨g, updatedAt, hg, -, rfl⟩ := Checked.seq_eq_ok.1 h
  obtain ⟨g', steps, hg', -, rfl⟩ := Checked.seq_eq_ok.1 hg
  obtain ⟨g'', vars, hg'', -, rfl⟩ := Checked.seq_eq_ok.1 hg'
  obtain ⟨g₃, project, hg₃, hproject, rfl⟩ := Checked.seq_eq_ok.1 hg''
  obtain ⟨schema, -, rfl⟩ := Checked.map_eq_ok.1 hg₃
  rw [Decode.field, hms] at hproject
  change (Project.ofJson p.wire).under _ = _ at hproject
  rw [Checked.under_eq_ok, Project.ofJson_wire] at hproject
  cases hproject
  rfl

theorem project_of_read {text blanks : String} (h : r.canonical = .ok text)
    (hb : ∀ c ∈ blanks.toList, isSpace c = true) (hread : Json.read .standard (text ++ blanks) = .ok v)
    (hr : Recipe.ofJson now v = .ok r') : r'.project = r.project := by
  obtain ⟨wire, hwire, -, rfl⟩ := canonical_eq_ok.1 h
  obtain ⟨ms, rfl, hkeyed, hmem⟩ := project_mem_wire hwire
  obtain ⟨hplain, hdepth⟩ := plainWithin_project r.project
  obtain ⟨ms', rfl, hms'⟩ := member_of_read rfl hb hkeyed hmem hplain
    (Nat.le_trans (Nat.succ_le_succ hdepth) (by decide)) hread
  exact project_of_ofJson hms' hr

end Provision.Recipe
