import Provision.Proofs.Disk.Showing

/-!
# The bytes at the end of a path

A path has bytes where it leads to a file (`bytesAt`). They stay when the log grows, unless they are the log
itself: `bytesAt_of_grown`. Asking for a file fails only where the system does not take the path (`Takes`), and
it takes every path that goes on from one that it takes by names short enough.
-/

namespace Provision.Disk

variable {d d' : Disk} {p : Path} {name : String} {k k' : Nat} {root root' : Node} {here names rest : List String}

/-- The bytes of the file that a path leads to. -/
def bytesAt (d : Disk) (p : Path) : Option ByteArray :=
  if p.hasNul then none
  else
    match d.shown p with
    | .ok (.file _ c) => some c.toBytes
    | _ => none

/-- The entries of the directory that a path leads to. -/
def entriesAt (d : Disk) (p : Path) : List (String × Node) :=
  match d.shown p with
  | .ok n => n.entries
  | .error _ => []

/-- No name on the way is too long, nor the path itself. -/
def Takes (d : Disk) (p : Path) : Prop :=
  d.shown p ≠ .error .nameTooLong

theorem shown_eq_tooLong : d.shown p = .error .nameTooLong ↔ d.locate p = .error .nameTooLong := by
  rw [shown]
  cases d.locate p with
  | error e => simp [bind, Except.bind]
  | ok spot => cases spot <;> simp [bind, Except.bind, Spot.shown]

theorem exists_of_walk_tooLong (h : walk root here names = .error .nameTooLong) :
    ∃ x ∈ names, longestName < x.utf8ByteSize := by
  induction names generalizing here with
  | nil =>
    rw [walk] at h
    split at h <;> cases h
  | cons name rest ih =>
    have hrest : ∀ {here}, walk root here rest = .error .nameTooLong →
        ∃ x ∈ name :: rest, longestName < x.utf8ByteSize := fun h =>
      (ih h).imp fun x hx => ⟨List.mem_cons_of_mem _ hx.1, hx.2⟩
    rw [walk] at h
    split at h
    · cases h
    · cases h
    · split at h
      · exact hrest h
      · split at h
        · rename_i hlong
          exact ⟨name, List.mem_cons_self, hlong⟩
        · split at h
          · exact hrest h
          · cases h
          · cases h

theorem walk_append_ne_tooLong (h : walk root here names ≠ .error .nameTooLong)
    (hr : ∀ x ∈ rest, x.utf8ByteSize ≤ longestName) : walk root here (names ++ rest) ≠ .error .nameTooLong := by
  intro hlong
  cases hw : walk root here names with
  | error e =>
    rw [walk_append_error hw] at hlong
    exact h (hw.trans hlong)
  | ok spot =>
    cases spot with
    | found l n =>
      rw [walk_append hw] at hlong
      obtain ⟨x, hx, hsize⟩ := exists_of_walk_tooLong hlong
      exact Nat.not_lt.2 (hr x hx) hsize
    | absent l =>
      by_cases hrest : rest = []
      · rw [hrest, List.append_nil] at hlong
        exact h hlong
      · cases (walk_append_absent hw hrest).symm.trans hlong

theorem Takes.child (h : d.Takes p) (hp : p.Room k) (hc : (p.child name).Room k') (hs : Path.IsSingle name)
    (hsize : name.utf8ByteSize ≤ longestName) : d.Takes (p.child name) := by
  rw [Takes, ne_eq, shown_eq_tooLong, locate_of_room hp] at h
  rw [Takes, ne_eq, shown_eq_tooLong, locate_of_room hc, Path.start_child d p hs, Path.names_child p hs]
  exact walk_append_ne_tooLong h fun x hx => List.mem_singleton.1 hx ▸ hsize

theorem run_probe_of_takes (h : p.hasNul = false → d.Takes p) :
    (probe p).run d = (.ok (if p.hasNul then none else (d.shown p).toOption), d) := by
  refine Prod.ext ?_ (readOnly_probe p d)
  cases hn : p.hasNul with
  | true =>
    rw [probe, hn]
    rfl
  | false =>
    rw [run_probe_shown hn]
    cases hs : d.shown p with
    | ok n => rfl
    | error e =>
      cases e with
      | nameTooLong => exact absurd hs (h hn)
      | _ => rfl

theorem run_isDir_nul (h : p.hasNul = true) : (isDir p).run d = (.ok false, d) := by
  rw [isDir, run_bind_ok (run_probe_of_takes fun hn => absurd (h.symm.trans hn) (by decide)), h]
  rfl

theorem run_isDir_of_takes (hn : p.hasNul = false) (h : d.Takes p) :
    ∃ b, (isDir p).run d = (.ok b, d) ∧ (b = true ↔ ∃ es, d.shown p = .ok (.dir es)) := by
  rw [isDir, run_bind_ok (run_probe_of_takes fun _ => h), hn]
  refine ⟨_, rfl, ?_⟩
  rcases hs : d.shown p with _ | ⟨_ | _⟩ <;> simp [Except.toOption, Node.isDir]

theorem run_isFile_of_takes (h : p.hasNul = false → d.Takes p) :
    (isFile p).run d = (.ok (d.bytesAt p).isSome, d) := by
  rw [isFile, run_bind_ok (run_probe_of_takes h), bytesAt]
  cases p.hasNul with
  | true => rfl
  | false => rcases d.shown p with _ | ⟨_ | _⟩ <;> rfl

theorem bytesAt_eq_some {b : ByteArray} (h : d.bytesAt p = some b) :
    ∃ l mode c, d.Finds p (.found l (.file mode c)) ∧ c.toBytes = b := by
  rw [bytesAt] at h
  split at h
  · cases h
  · rename_i hn
    split at h
    · rename_i mode c hs
      cases h
      obtain ⟨l, hf⟩ := finds_of_shown (Bool.eq_false_iff.2 hn) hs
      exact ⟨l, mode, c, hf, rfl⟩
    · cases h

theorem Finds.bytesAt {l : List String} {mode : Nat} {c : Content} (h : d.Finds p (.found l (.file mode c))) :
    d.bytesAt p = some c.toBytes := by
  rw [Disk.bytesAt, h.noNul, h.shown]
  rfl

theorem bytesAt_child_none (hp : p.Room k) (hs : Path.IsSingle name) (hd : name ≠ "..")
    (h : ¬ ∃ es, d.shown p = .ok (.dir es)) : d.bytesAt (p.child name) = none := by
  cases hb : d.bytesAt (p.child name) with
  | none => rfl
  | some b =>
    obtain ⟨l, mode, c, hf, -⟩ := bytesAt_eq_some hb
    have hw := hf.leads
    rw [Path.start_child d p hs, Path.names_child p hs] at hw
    obtain ⟨l', es, hl, -, -⟩ := walk_concat hd hw
    refine absurd ⟨es, ?_⟩ h
    rw [shown, locate_of_room hp, hl]
    rfl

theorem bytesAt_of_sameShape {b : ByteArray} (hcwd : d'.cwd = d.cwd) (hshape : Node.SameShape d.root d'.root)
    (hfile : ∀ mode c, d.root.get? (d.placeOf p) = some (.file mode c) →
      d'.root.get? (d.placeOf p) = some (.file mode c))
    (h : d.bytesAt p = some b) : d'.bytesAt p = some b := by
  obtain ⟨l, mode, c, hf, rfl⟩ := bytesAt_eq_some h
  have hplace : d.placeOf p = l := (place_eq_follow hf.leads).symm
  have hnode := hfile mode c (hplace.symm ▸ get_of_walk hf.leads)
  rw [hplace] at hnode
  have hleads := walk_keepsDirs hshape.keepsDirs hf.leads hnode
  rw [← start_of_cwd hcwd] at hleads
  exact Finds.bytesAt ⟨hf.noNul, hf.short, hleads⟩

theorem bytesAt_of_grown (h : Grown d d') (hd : d.WellFormed) (hheld : d.held ≠ some (d.placeOf p)) :
    d'.bytesAt p = d.bytesAt p := by
  -- A file that is not the held one is not above it either.
  have hsame : ∀ {n : Node}, (∃ mode c, n.get? (d.placeOf p) = some (.file mode c)) →
      Node.SameShape d.root n → d'.root.get? (d.placeOf p) = d.root.get? (d.placeOf p) := by
    rintro n ⟨mode, c, hn⟩ hshape
    obtain ⟨mode', c', hroot⟩ := (hshape.fileAt _).1 ⟨mode, c, hn⟩
    refine h.node _ fun t ht hpre => hheld ?_
    obtain ⟨mode₂, c₂, hfile⟩ := hd.held t ht
    rw [ht, (Node.noDirAt_of_file hroot).eq_of_above (by rw [hfile]; rfl) hpre]
  refine Option.ext fun b => ⟨fun hb => ?_, fun hb => ?_⟩
  · refine bytesAt_of_sameShape (d := d') h.cwd.symm h.shape.symm (fun mode c hc => ?_) hb
    rw [placeOf_of_cwd h.cwd] at hc ⊢
    exact (hsame ⟨mode, c, hc⟩ h.shape).symm.trans hc
  · refine bytesAt_of_sameShape h.cwd h.shape (fun mode c hc => ?_) hb
    exact (hsame ⟨mode, c, hc⟩ (.refl _)).trans hc

theorem LeadsTo.takes {l : List String} (h : d.LeadsTo p l) (hp : p.Room k) : d.Takes p := by
  obtain ⟨es, h⟩ := h
  rw [Takes, ne_eq, shown_eq_tooLong, locate_of_room hp, h]
  exact nofun

end Provision.Disk
