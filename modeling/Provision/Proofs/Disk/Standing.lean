import Provision.Proofs.Disk.Footprint
import Provision.Proofs.Disk.Making
import Provision.Proofs.Disk.Refusals

/-!
# While all that is there stands

Where an operation only makes directories (`OnlyMakes`), the bytes at the end of a path are those that were there
before (`OnlyMakes.bytesAt`), unless the path has come to lead where it did not lead (`GoesBack`). It has not where it
goes on by names from a directory that was there, or has no names that lead up. A path that was too long still is
(`tooLong_of_keepsDirs`), but another may only now turn out to be.
-/

namespace Provision.Disk

open Provision.Path (IsSingle)

variable {needed : List String → Prop} {d d' d'' : Disk} {p : Path} {root root' : Node} {here names l : List String}
  {name : String} {es : List (String × Node)} {mode : Nat} {c : Content}

/-- All that is there stands, and what is new are directories where some are needed. -/
abbrev OnlyMakes (needed : List String → Prop) (d d' : Disk) : Prop :=
  Footprint (fun _ => False) needed d d'

namespace OnlyMakes

theorem stands_at (h : OnlyMakes needed d d') (l : List String) :
    Node.Stands (needed l) (d.held = some l) (d.root.get? l) (d'.root.get? l) :=
  h.stands l id

theorem keepsDirs (h : OnlyMakes needed d d') : Node.KeepsDirs d.root d'.root := fun l _ hl =>
  Node.Stands.of_dir (hl ▸ h.stands_at l)

theorem file_iff (h : OnlyMakes needed d d') (hheld : d.held ≠ some l) :
    d'.root.get? l = some (.file mode c) ↔ d.root.get? l = some (.file mode c) := by
  have hstands := h.stands_at l
  generalize d.root.get? l = n at hstands ⊢
  generalize d'.root.get? l = n' at hstands ⊢
  cases hstands with
  | nothing | file => exact Iff.rfl
  | made | dir => simp
  | grown hh => exact absurd hh hheld

theorem isSome (h : OnlyMakes needed d d') (hl : (d.root.get? l).isSome = true) : (d'.root.get? l).isSome = true := by
  have hstands := h.stands_at l
  generalize d.root.get? l = n at hl hstands
  generalize d'.root.get? l = n' at hstands ⊢
  cases hstands with
  | nothing => exact hl
  | _ => rfl

theorem file_of_file (h : OnlyMakes needed d d') (hl : d'.root.get? l = some (.file mode c)) :
    ∃ c₀, d.root.get? l = some (.file mode c₀) := by
  have hstands := h.stands_at l
  rw [hl] at hstands
  generalize d.root.get? l = n at hstands
  cases hstands with
  | file => exact ⟨c, rfl⟩
  | grown => exact ⟨_, rfl⟩

theorem dir_of_dir {n : Node} (h : OnlyMakes needed d d') (hl : d'.root.get? l = some (.dir es))
    (hn : d.root.get? l = some n) : ∃ es₀, n = .dir es₀ := by
  have hstands := h.stands_at l
  rw [hl, hn] at hstands
  cases hstands with
  | dir => exact ⟨_, rfl⟩

end OnlyMakes

theorem walk_of_none (h : root.get? here = none) (names : List String) : walk root here names = .error .noEntry := by
  cases names <;> rw [walk, h]

theorem walk_tooLong_of_keepsDirs (hk : Node.KeepsDirs root root') (h : walk root here names = .error .nameTooLong) :
    walk root' here names = .error .nameTooLong := by
  induction names generalizing here with
  | nil =>
    rw [walk] at h
    split at h <;> cases h
  | cons x rest ih =>
    rw [walk] at h
    split at h
    · cases h
    · cases h
    · rename_i es hes
      obtain ⟨es', hes'⟩ := hk here es hes
      rw [walk, hes']
      dsimp only
      split at h
      · rename_i hd
        rw [if_pos hd]
        exact ih h
      · rename_i hd
        rw [if_neg hd]
        split at h
        · rename_i hlong
          rw [if_pos hlong]
        · rename_i hlong
          rw [if_neg hlong]
          split at h
          · -- The walk goes on, so there is something in the second tree, too.
            have hrest := ih h
            cases hx : es'.lookup x with
            | some n => exact hrest
            | none =>
              have hnone : root'.get? (here ++ [x]) = none := (Node.get_concat_of_dir hes' x).trans hx
              cases (walk_of_none hnone _).symm.trans hrest
          · cases h
          · cases h

theorem tooLong_of_keepsDirs (hcwd : d'.cwd = d.cwd) (hk : Node.KeepsDirs d.root d'.root) (h : d.TooLong p) :
    d'.TooLong p := by
  obtain ⟨hn, hlong⟩ := h
  refine ⟨hn, not_not.2 (shown_eq_tooLong.2 ?_)⟩
  have hlocate := shown_eq_tooLong.1 (not_not.1 hlong)
  rw [locate] at hlocate ⊢
  split at hlocate
  · rename_i hsize
    rw [if_pos hsize]
  · rename_i hsize
    rw [if_neg hsize, start_of_cwd hcwd]
    exact walk_tooLong_of_keepsDirs hk hlocate

theorem Finds.dir_of_keepsDirs (h : d.Finds p (.found l (.dir es))) (hcwd : d'.cwd = d.cwd)
    (hk : Node.KeepsDirs d.root d'.root) : ∃ es', d'.Finds p (.found l (.dir es')) := by
  obtain ⟨es', hleads⟩ := walk_dir_keepsDirs hk h.leads
  exact ⟨es', h.noNul, h.short, by rw [start_of_cwd hcwd, hleads]⟩

/-- Where the path leads now it led before, if there was anything. -/
def GoesBack (d d' : Disk) (p : Path) : Prop :=
  ∀ l n n', d'.Finds p (.found l n') → d.root.get? l = some n → d.Finds p (.found l n)

theorem goesBack_of_leadsTo (hcwd : d'.cwd = d.cwd) (hk : Node.KeepsDirs d.root d'.root) (h : d.LeadsTo p l) :
    GoesBack d d' p := by
  obtain ⟨es, hleads⟩ := h
  intro l' n n' hf hn
  obtain ⟨es', hf'⟩ := Finds.dir_of_keepsDirs ⟨hf.noNul, hf.short, hleads⟩ hcwd hk
  cases hf.unique hf'
  cases (get_of_walk hleads).symm.trans hn
  exact ⟨hf.noNul, hf.short, hleads⟩

theorem goesBack_of_no_dots (hd : d.WellFormed) (hcwd : d'.cwd = d.cwd) (hp : ".." ∉ p.names) : GoesBack d d' p := by
  intro l n n' hf hn
  have hleads := hf.leads
  rw [start_of_cwd hcwd] at hleads
  have hplace : l = d.start p ++ p.names := place_of_walk hp hleads
  have hplain := isPlain_of_mem_place hleads (start_plain hd.cwd p)
  subst hplace
  exact ⟨hf.noNul, hf.short, walk_place hn fun x hx => hplain x (List.mem_append_right _ hx)⟩

theorem GoesBack.child (h : GoesBack d d' p) (hs : IsSingle name) (hd : name ≠ "..") :
    GoesBack d d' (p.child name) := by
  intro l n n' hf hn
  have hleads := hf.leads
  rw [Path.start_child d' p hs, Path.names_child p hs] at hleads
  obtain ⟨l₁, es', hl₁, hplain, hspot⟩ := walk_concat hd hleads
  have hl : l = l₁ ++ [name] := by
    rw [entrySpot] at hspot
    split at hspot <;> cases hspot
    rfl
  subst hl
  obtain ⟨es, hes⟩ := Node.isDir_of_get_append (by rw [hn]; rfl) (List.cons_ne_nil name [])
  have hshort := Nat.lt_of_le_of_lt (p.text_le_child hs) hf.short
  have hback := h l₁ (.dir es) (.dir es') ⟨Path.noNul_of_child hs hf.noNul, hshort, hl₁⟩ hes
  refine ⟨hf.noNul, hf.short, ?_⟩
  rw [Path.start_child d p hs, Path.names_child p hs, walk_append hback.leads, walk_last hes hplain, entrySpot,
    ← Node.get_concat_of_dir hes, hn]

theorem OnlyMakes.bytesAt (h : OnlyMakes needed d d') (hback : GoesBack d d' p) (hheld : d.held ≠ some (d.placeOf p)) :
    d'.bytesAt p = d.bytesAt p := by
  refine Option.ext fun b => ⟨fun hb => ?_, fun hb => ?_⟩
  · obtain ⟨l, mode, c, hf, rfl⟩ := bytesAt_eq_some hb
    have hplace : l = d.placeOf p := (place_eq_follow hf.leads).trans (placeOf_of_cwd h.cwd p)
    have hfile := (h.file_iff (hplace ▸ hheld)).1 (get_of_walk hf.leads)
    exact (hback l _ _ hf hfile).bytesAt
  · obtain ⟨l, mode, c, hf, rfl⟩ := bytesAt_eq_some hb
    have hplace : l = d.placeOf p := place_eq_follow hf.leads
    have hfile := (h.file_iff (hplace ▸ hheld)).2 (get_of_walk hf.leads)
    have hleads := walk_keepsDirs h.keepsDirs hf.leads hfile
    rw [← start_of_cwd h.cwd] at hleads
    exact Finds.bytesAt ⟨hf.noNul, hf.short, hleads⟩

end Provision.Disk
