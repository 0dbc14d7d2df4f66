import Provision.Bundle.Name
import Provision.Proofs.Disk.Paths

/-!
# Names of bundles

Whatever a project is called, the name of its bundle holds safe characters only (`isSafe_of_mem_safeName`), so by
default a bundle goes to an entry of the directory for exports (`defaultDir_eq`).
-/

namespace Provision.Bundle

variable {c : Char} {cs : List Char} {inRun : Bool} {name : String}

theorem isSafe_of_mem_reduceFrom (h : c ∈ reduceFrom inRun cs) : isSafe c = true := by
  induction cs generalizing inRun with
  | nil => cases h
  | cons x cs ih =>
    rw [reduceFrom] at h
    split at h
    · rename_i hx
      rcases List.mem_cons.1 h with rfl | h
      · exact hx
      · exact ih h
    · split at h
      · exact ih h
      · rcases List.mem_cons.1 h with rfl | h
        · rfl
        · exact ih h

theorem mem_of_mem_strip {p : Char → Bool} (h : c ∈ Text.strip p cs) : c ∈ cs := by
  rw [Text.strip, List.mem_reverse] at h
  have hmem := (List.dropWhile_suffix p).subset h
  exact (List.dropWhile_suffix p).subset (List.mem_reverse.1 hmem)

theorem isSafe_of_mem_safeName (h : c ∈ (safeName name).toList) : isSafe c = true := by
  rw [safeName] at h
  split at h
  · exact List.all_eq_true.1 (by decide : "project".toList.all isSafe = true) c h
  · rw [String.toList_ofList] at h
    exact isSafe_of_mem_reduceFrom (mem_of_mem_strip h)

theorem isSingle_bundle (name : String) : Path.IsSingle ("bundle_" ++ safeName name) := by
  have hchars : ("bundle_" ++ safeName name).toList = 'b' :: ("undle_".toList ++ (safeName name).toList) := by
    rw [String.toList_append]
    rfl
  refine ⟨fun c hc => ?_, fun he => ?_, fun he => ?_⟩
  · rintro rfl
    rw [String.toList_append, List.mem_append] at hc
    rcases hc with hc | hc
    · simp at hc
    · cases isSafe_of_mem_safeName hc
  · rw [he] at hchars
    cases hchars
  · rw [he] at hchars
    cases hchars

theorem defaultDir_eq (root : Path) (name : String) :
    defaultDir root name = { root with names := root.names ++ ["bundle_" ++ safeName name] } :=
  Path.child_of_single root (isSingle_bundle name)

end Provision.Bundle
