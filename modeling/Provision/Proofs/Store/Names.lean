import Provision.Proofs.Disk.Room
import Provision.Store.Basic

/-!
# Names in a store

Names that a store accepts can name entries of directories (`IsEntryName.isEntry`) where the system takes
them, and so can the names that it uses itself and the ids that it gives out (`isEntryName_hex`).
-/

namespace Provision

theorem Save.isEntry_assetsDir : Path.IsEntry assetsDir :=
  ⟨⟨by simp [assetsDir], by decide, by decide⟩, ⟨by decide, by decide⟩, by decide⟩

theorem Save.isEntry_recipeFile : Path.IsEntry recipeFile :=
  ⟨⟨by simp [recipeFile], by decide, by decide⟩, ⟨by decide, by decide⟩, by decide⟩

namespace Store

/-- A name that is accepted for a project or a file and that the system can give to an entry. -/
structure IsEntryName (name : String) : Prop where
  accepted : isName name = true
  ne_dot : name ≠ "."
  noNul : name.toList.contains '\x00' = false
  size : name.utf8ByteSize ≤ Disk.longestName

/-- Names that are accepted are single ones and do not lead up, but for a single dot. -/
theorem single_of_isName {name : String} (h : isName name = true) (hd : name ≠ ".") :
    Path.IsSingle name ∧ name ≠ ".." := by
  simp only [isName, Bool.and_eq_true, decide_eq_true_eq, Bool.not_eq_true', List.any_eq_false] at h
  obtain ⟨⟨hempty, hdots⟩, hslash⟩ := h
  refine ⟨⟨fun c hc he => hslash c hc ?_, hempty, hd⟩, ?_⟩
  · rw [he]
    decide
  · rintro rfl
    exact absurd hdots (by decide)

theorem IsEntryName.isEntry {name : String} (h : IsEntryName name) : Path.IsEntry name := by
  obtain ⟨hs, hd⟩ := single_of_isName h.accepted h.ne_dot
  exact ⟨hs, ⟨hd, h.size⟩, h.noNul⟩

/-- What is needed of the characters of an id. -/
def IsIdChar (c : Char) : Prop :=
  c ≠ '.' ∧ c ≠ '\x00' ∧ forbidden c = false ∧ c.utf8Size = 1

theorem isIdChar_hexDigit {k : Nat} (h : k < 16) : IsIdChar (Text.hexDigit k) := by
  have hall : ∀ k < 16, Text.hexDigit k ≠ '.' ∧ Text.hexDigit k ≠ '\x00' ∧
      forbidden (Text.hexDigit k) = false ∧ (Text.hexDigit k).utf8Size = 1 := by decide
  exact hall k h

theorem isIdChar_of_mem_hex {width n : Nat} {c : Char} (h : c ∈ Text.hex width n) : IsIdChar c := by
  induction width generalizing n with
  | zero => cases h
  | succ width ih =>
    rw [Text.hex, List.mem_append, List.mem_singleton] at h
    rcases h with h | rfl
    · exact ih h
    · exact isIdChar_hexDigit (Nat.mod_lt n (by decide))

theorem size_hex (width n : Nat) : (String.ofList (Text.hex width n)).utf8ByteSize = width := by
  induction width generalizing n with
  | zero => rfl
  | succ width ih =>
    have hc : IsIdChar (Text.hexDigit (n % 16)) := isIdChar_hexDigit (Nat.mod_lt n (by decide))
    have hpush : String.ofList (Text.hex (width + 1) n) =
        (String.ofList (Text.hex width (n / 16))).push (Text.hexDigit (n % 16)) :=
      String.toList_inj.1 (by simp [Text.hex])
    rw [hpush, String.utf8ByteSize_push, ih, hc.2.2.2]

theorem hasTwoDots_of_not_mem {cs : List Char} (h : '.' ∉ cs) : hasTwoDots cs = false := by
  induction cs with
  | nil => rfl
  | cons c cs ih =>
    rw [List.mem_cons, not_or] at h
    rw [hasTwoDots]
    · exact ih h.2
    · rintro cs' rfl
      exact absurd rfl h.1

theorem isEntryName_hex (n : Nat) : IsEntryName (String.ofList (Text.hex 32 n)) := by
  have hsize := size_hex 32 n
  have hchars : ∀ c ∈ (String.ofList (Text.hex 32 n)).toList, IsIdChar c := fun c hc =>
    isIdChar_of_mem_hex (String.toList_ofList ▸ hc)
  refine ⟨?_, ?_, ?_, by rw [hsize]; decide⟩
  · have hempty : String.ofList (Text.hex 32 n) ≠ "" := by
      intro he
      rw [he] at hsize
      cases hsize
    have hdots := hasTwoDots_of_not_mem fun hc => (hchars '.' hc).1 rfl
    have hslash : (String.ofList (Text.hex 32 n)).toList.any forbidden = false :=
      List.any_eq_false.2 fun c hc => by simp [(hchars c hc).2.2.1]
    simp only [isName, hdots, hslash, Bool.not_false, Bool.and_true, decide_eq_true hempty]
  · intro he
    exact (hchars '.' (by rw [he]; decide)).1 rfl
  · rw [← Bool.not_eq_true, List.contains_iff_mem]
    exact fun hc => (hchars _ hc).2.1 rfl

end Store

end Provision
