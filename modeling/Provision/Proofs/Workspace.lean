import Provision.Proofs.Disk.Shape
import Provision.Workspace

/-!
# Working and logging

Disk operations in a workspace change its disk and nothing else. Logging adds to the console or to the
held file: a file that is not the held one keeps its content, and so do the clock and all directories.
-/

namespace Provision

variable {ε α : Type} {w w' w'' : Workspace} {l : List String}

namespace WorkM

variable {failure : DiskFault → ε} {x : DiskM α}

theorem run_onDisk_ok {a : α} {d : Disk} (h : x.run w.disk = (.ok a, d)) :
    (onDisk failure x).run w = (.ok a, { w with disk := d }) := by
  rw [onDisk, run_bind_ok (run_get w)]
  simp only [h]
  rfl

theorem run_onDisk_error {e : DiskFault} {d : Disk} (h : x.run w.disk = (.error e, d)) :
    (onDisk failure x).run w = (.error (failure e), { w with disk := d }) := by
  rw [onDisk, run_bind_ok (run_get w)]
  simp only [h]
  rfl

theorem onDisk_eq_ok {a : α} (h : (onDisk failure x).run w = (.ok a, w')) :
    ∃ d, x.run w.disk = (.ok a, d) ∧ w' = { w with disk := d } := by
  rcases hx : x.run w.disk with ⟨e | b, d⟩
  · rw [run_onDisk_error hx] at h
    cases h
  · rw [run_onDisk_ok hx] at h
    cases h
    exact ⟨d, rfl, rfl⟩

theorem readOnly_onDisk (h : ReadOnly x) : ReadOnly (onDisk failure x) := by
  intro w
  rcases hx : x.run w.disk with ⟨e | a, d⟩
  · rw [run_onDisk_error hx, ← h.run_eq hx]
  · rw [run_onDisk_ok hx, ← h.run_eq hx]

theorem fails_onDisk {P : ε → Prop} (h : ∀ e, P (failure e)) : FailsWith P (onDisk failure x) := by
  intro w f w' hw
  rcases hx : x.run w.disk with ⟨e | a, d⟩
  · rw [run_onDisk_error hx] at hw
    cases hw
    exact h e
  · rw [run_onDisk_ok hx] at hw
    cases hw

theorem answer_onDisk (h : (x.run w'.disk).1 = (x.run w.disk).1) :
    ((onDisk failure x).run w').1 = ((onDisk failure x).run w).1 := by
  rcases hx : x.run w.disk with ⟨r, d⟩
  rcases hx' : x.run w'.disk with ⟨r', d'⟩
  rw [hx, hx'] at h
  obtain rfl : r' = r := h
  cases r' with
  | error e => rw [run_onDisk_error hx, run_onDisk_error hx']
  | ok a => rw [run_onDisk_ok hx, run_onDisk_ok hx']

@[simp] theorem run_log (severity : Log.Severity) (source message : String) (w : Workspace) :
    (log severity source message : WorkM ε Unit).run w =
      (.ok (), w.emit ⟨severity, source, message⟩) := rfl

@[simp] theorem run_now (w : Workspace) : (now : WorkM ε Timestamp).run w = (.ok w.now, w) := rfl

end WorkM

namespace Workspace

section

variable {R : Workspace → Workspace → Prop} (hrefl : ∀ w, R w w)
  (htrans : ∀ {w w' w''}, R w w' → R w' w'' → R w w'') (hline : ∀ w x, R w (w.writeLine x))

include hrefl htrans hline

theorem rel_emit (w : Workspace) (r : Log.Record) : R w (w.emit r) := by
  rw [emit]
  generalize w.log.lines w.now r = xs
  induction xs generalizing w with
  | nil => exact hrefl w
  | cons x xs ih => exact htrans (hline w x) (ih _)

theorem rel_emitAll (w : Workspace) (rs : List Log.Record) :
    R w (rs.foldl (fun w r => w.emit r) w) := by
  induction rs generalizing w with
  | nil => exact hrefl w
  | cons r rs ih => exact htrans (rel_emit hrefl htrans hline w r) (ih _)

end

/-- Nothing but the log is changed: the clock, the place for exports and where the log goes stay, and of the disk
all but the content of the held file. -/
structure Logs (w w' : Workspace) : Prop where
  now : w'.now = w.now
  tempDir : w'.tempDir = w.tempDir
  setup : w'.log = w.log
  disk : Disk.Grown w.disk w'.disk

theorem Logs.refl (w : Workspace) : Logs w w := ⟨rfl, rfl, rfl, .refl _⟩

theorem Logs.trans (h : Logs w w') (h' : Logs w' w'') : Logs w w'' :=
  ⟨h'.now.trans h.now, h'.tempDir.trans h.tempDir, h'.setup.trans h.setup, h.disk.trans h'.disk⟩

theorem Logs.held (h : Logs w w') : w'.disk.held = w.disk.held := h.disk.held

theorem logs_writeLine (w : Workspace) (x : Log.Sink × String) : Logs w (w.writeLine x) := by
  obtain ⟨_ | path, line⟩ := x
  · exact ⟨rfl, rfl, rfl, .refl _⟩
  · exact ⟨rfl, rfl, rfl, Disk.grown_append _ _⟩

theorem logs_emit (w : Workspace) (r : Log.Record) : Logs w (w.emit r) :=
  rel_emit Logs.refl Logs.trans logs_writeLine w r

theorem logs_emitAll (w : Workspace) (rs : List Log.Record) :
    Logs w (rs.foldl (fun w r => w.emit r) w) :=
  rel_emitAll Logs.refl Logs.trans logs_writeLine w rs

theorem keeps_append {d : Disk} (h : d.held ≠ some l) (bytes : ByteArray) :
    Disk.Keeps l d (d.append bytes) := by
  unfold Disk.append
  split
  · exact .refl l d
  · rename_i place hp
    split
    · rename_i mode c hc
      exact Disk.keeps_setAt _ (Node.noDirAt_of_file hc) fun heq => h (heq ▸ hp)
    · exact .refl l d

theorem hasFile_append {d : Disk} {p : Path} {c : Content} (hl : d.held = some l)
    (h : d.HasFile p l c) (bytes : ByteArray) :
    (d.append bytes).HasFile p l (.bytes (c.toBytes ++ bytes)) := by
  obtain ⟨mode, h⟩ := h
  have happend : d.append bytes = d.setAt l (some (.file mode (.bytes (c.toBytes ++ bytes)))) := by
    rw [Disk.append, hl]
    simp only [Disk.get_of_walk h.leads, Disk.setAt, hl]
  exact Disk.PutsFile.hasFile ⟨.inr ⟨mode, c, h⟩, happend⟩

theorem keeps_emit (h : w.disk.held ≠ some l) (r : Log.Record) :
    Disk.Keeps l w.disk (w.emit r).disk := by
  refine rel_emit (R := fun w w' => w.disk.held ≠ some l → Disk.Keeps l w.disk w'.disk)
    (fun w _ => .refl l w.disk) (fun hk hk' h => ?_) (fun w x h => ?_) w r h
  · exact (hk h).trans (hk' ((hk h).held.symm ▸ h))
  · obtain ⟨_ | path, line⟩ := x
    · exact .refl l w.disk
    · exact keeps_append h _

end Workspace

end Provision
