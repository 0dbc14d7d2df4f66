import Mathlib.Data.List.DropRight
import Provision.Proofs.Bundle.Naming
import Provision.Proofs.Disk.Room

/-!
# Where bundles go by default

What the name of a project is reduced to is of one form (`isReduced_safeName`), and names of this form are those that
are kept (`safeName_eq_self_iff`). So by default a bundle is a direct child of the directory for exports, whatever its
project is called and wherever that directory is (`defaultDir_confined`): nothing else is replaced by an export.
-/

namespace Provision

namespace Text

variable {p : Char → Bool} {cs : List Char}

/-- There is nothing to drop at the ends. -/
structure Stripped (p : Char → Bool) (cs : List Char) : Prop where
  first : ∀ c ∈ cs.head?, p c = false
  last : ∀ c ∈ cs.getLast?, p c = false

/-- Dropping at the end exposes no new beginning: what is left there is a prefix of what was. -/
theorem stripped_strip (p : Char → Bool) (cs : List Char) : Stripped p (strip p cs) := by
  have hstrip : strip p cs = (cs.dropWhile p).rdropWhile p := rfl
  rw [hstrip]
  constructor
  · intro c hc
    obtain ⟨rest, hrest⟩ := List.rdropWhile_prefix (p := p) (l := cs.dropWhile p)
    have hhead : (cs.dropWhile p).head? = some c := by
      rw [← hrest, List.head?_append, hc, Option.some_or]
    have hnot := List.head?_dropWhile_not p cs
    rw [hhead] at hnot
    exact hnot
  · intro c hc
    obtain ⟨hne, rfl⟩ := List.mem_getLast?_eq_getLast hc
    exact Bool.eq_false_iff.2 (List.rdropWhile_last_not p _ hne)

theorem strip_eq_self_iff : strip p cs = cs ↔ Stripped p cs := by
  constructor
  · intro h
    exact h ▸ stripped_strip p cs
  · intro h
    have hfirst : cs.dropWhile p = cs := by
      cases cs with
      | nil => rfl
      | cons c cs => rw [List.dropWhile_cons_of_neg (by simp [h.first c rfl])]
    have hlast : cs.rdropWhile p = cs := List.rdropWhile_eq_self_iff.2 fun hne => by
      simp [h.last _ (List.getLast?_eq_some_getLast hne)]
    change (cs.dropWhile p).rdropWhile p = cs
    rw [hfirst, hlast]

end Text

namespace Bundle

open Text (Stripped)

variable {c : Char} {cs : List Char} {name : String}

/-- The characters of reduced names. -/
def IsNameChar (c : Char) : Prop :=
  'A' ≤ c ∧ c ≤ 'Z' ∨ 'a' ≤ c ∧ c ≤ 'z' ∨ '0' ≤ c ∧ c ≤ '9' ∨ c = '.' ∨ c = '_' ∨ c = '-'

/-- A name that is not empty, of such characters only, and with no dot or underscore at an end. -/
structure IsReduced (name : String) : Prop where
  ne_empty : name ≠ ""
  chars : ∀ c ∈ name.toList, IsNameChar c
  first : ∀ c ∈ name.toList.head?, c ≠ '.' ∧ c ≠ '_'
  last : ∀ c ∈ name.toList.getLast?, c ≠ '.' ∧ c ≠ '_'

theorem isSafe_iff : isSafe c = true ↔ IsNameChar c := by
  have hupper : c.isUpper = decide ('A' ≤ c ∧ c ≤ 'Z') := rfl
  have hlower : c.isLower = (decide ('a' ≤ c) && decide (c ≤ 'z')) := rfl
  have hdigit : c.isDigit = (decide ('0' ≤ c) && decide (c ≤ '9')) := rfl
  have halpha : c.isAlpha = (c.isUpper || c.isLower) := rfl
  simp [isSafe, IsNameChar, Char.isAlphanum, halpha, hupper, hlower, hdigit, or_assoc]

theorem isEdge_eq_false : isEdge c = false ↔ c ≠ '.' ∧ c ≠ '_' := by
  simp [isEdge]

theorem isReduced_iff : IsReduced name ↔
    name.toList ≠ [] ∧ (∀ c ∈ name.toList, isSafe c = true) ∧ Stripped isEdge name.toList := by
  constructor
  · intro h
    exact ⟨fun hnil => h.ne_empty (String.toList_inj.1 hnil), fun c hc => isSafe_iff.2 (h.chars c hc),
      fun c hc => isEdge_eq_false.2 (h.first c hc), fun c hc => isEdge_eq_false.2 (h.last c hc)⟩
  · rintro ⟨hne, hsafe, hends⟩
    refine ⟨?_, fun c hc => isSafe_iff.1 (hsafe c hc), fun c hc => isEdge_eq_false.1 (hends.first c hc),
      fun c hc => isEdge_eq_false.1 (hends.last c hc)⟩
    rintro rfl
    exact hne rfl

theorem reduceFrom_eq_self (inRun : Bool) (h : ∀ c ∈ cs, isSafe c = true) : reduceFrom inRun cs = cs := by
  induction cs generalizing inRun with
  | nil => rfl
  | cons c cs ih =>
    obtain ⟨hc, hcs⟩ := List.forall_mem_cons.1 h
    rw [reduceFrom, if_pos hc, ih false hcs]

theorem stripped_project : Text.Stripped isEdge "project".toList where
  first c hc := by
    obtain rfl : 'p' = c := Option.some.inj hc
    decide
  last c hc := by
    obtain rfl : 't' = c := Option.some.inj hc
    decide

theorem isReduced_safeName (name : String) : IsReduced (safeName name) := by
  refine isReduced_iff.2 ⟨?_, fun c => isSafe_of_mem_safeName, ?_⟩
  · rw [safeName]
    split
    · decide
    · rename_i hne
      rw [String.toList_ofList]
      exact hne
  · rw [safeName]
    split
    · exact stripped_project
    · rw [String.toList_ofList]
      exact Text.stripped_strip _ _

theorem safeName_eq_self_iff : safeName name = name ↔ IsReduced name := by
  constructor
  · intro h
    exact h ▸ isReduced_safeName name
  · intro h
    obtain ⟨hne, hsafe, hends⟩ := isReduced_iff.1 h
    have hstrip : Text.strip isEdge (reduceFrom false name.toList) = name.toList := by
      rw [reduceFrom_eq_self false hsafe, Text.strip_eq_self_iff.2 hends]
    rw [safeName, hstrip]
    split
    · rename_i hnil
      exact absurd hnil hne
    · exact String.ofList_toList

theorem below_defaultDir (root : Path) (name : String) :
    Disk.Below root ["bundle_" ++ safeName name] (defaultDir root name) := by
  rw [defaultDir_eq]
  refine ⟨rfl, rfl, fun hdots => ?_⟩
  have hchars := congrArg String.toList (List.mem_singleton.1 hdots)
  rw [String.toList_append] at hchars
  cases hchars

/-- Whatever a project is called, its bundle goes by default to a direct child of the directory for exports, also where
this is reached through parents of other directories. The name of the child ends in a reduced name, which is the name
of the project itself exactly if that is reduced. -/
theorem defaultDir_confined (root : Path) (name : String) :
    IsReduced (safeName name) ∧
    (defaultDir root name).parent = root ∧
    (defaultDir root name).name = "bundle_" ++ safeName name ∧
    (∀ d : Disk, d.placeOf (defaultDir root name) = d.placeOf root ++ ["bundle_" ++ safeName name]) ∧
    (safeName name = name ↔ IsReduced name) ∧
    safeName (safeName name) = safeName name := by
  refine ⟨isReduced_safeName name, ?_, ?_, fun d => Disk.placeOf_below (below_defaultDir root name),
    safeName_eq_self_iff, safeName_eq_self_iff.2 (isReduced_safeName name)⟩
  · rw [defaultDir_eq, Path.parent]
    simp
  · rw [defaultDir_eq, Path.name]
    simp

example : (defaultDir ⟨.relative, ["out"]⟩ "../../etc").names = ["out", "bundle_etc"] := by decide

end Bundle

end Provision
