import Provision.Proofs.Store.Reading

/-!
# What a save of a recipe consists of

A save that succeeds goes through four stages (`Save.run_eq_ok`), and there is no other way for it to succeed
(`Save.run_ok_cases`). `run_saveRecipe_eq`: to save a recipe is to run one `Save` on the disk, that of the recipe
with the present date, and to log how it ended. Nothing is done for a recipe whose id is refused.
-/

namespace Provision

namespace Save

variable {v : Save} {d d' : Disk} {text : String} {temp : Path} {e cause : DiskFault} {f : WriteFault} {u : Unit}
  {troubles : Disk.Troubles}

theorem step_start_ok (h : (Disk.makeDirs (v.dir.child assetsDir) troubles).run d = (.ok u, d')) :
    v.step .start troubles d = (.prepared, d') := by
  simp only [step, bind, StateT.bind, h]
  rfl

theorem step_start_error (h : (Disk.makeDirs (v.dir.child assetsDir) troubles).run d = (.error e, d')) :
    v.step .start troubles d = (.finished (.error (.disk e)), d') := by
  simp only [step, bind, StateT.bind, h]
  rfl

theorem step_prepared_refused (h : v.text = .error f) :
    v.step .prepared troubles d = (.finished (.error (.write f)), d) := by
  simp only [step, h]
  rfl

theorem step_prepared_ok (ht : v.text = .ok text) (h : (Disk.createTemp v.dir troubles).run d = (.ok temp, d')) :
    v.step .prepared troubles d = (.reserved temp, d') := by
  simp only [step, ht, bind, StateT.bind, h]
  rfl

theorem step_prepared_error (ht : v.text = .ok text) (h : (Disk.createTemp v.dir troubles).run d = (.error e, d')) :
    v.step .prepared troubles d = (.finished (.error (v.failed e)), d') := by
  simp only [step, ht, bind, StateT.bind, h]
  rfl

theorem step_reserved_refused (h : v.text = .error f) :
    v.step (.reserved temp) troubles d = (.finished (.error (.write f)), d) := by
  simp only [step, h]
  rfl

theorem step_reserved_ok (ht : v.text = .ok text) (h : (Disk.writeText temp text troubles).run d = (.ok u, d')) :
    v.step (.reserved temp) troubles d = (.filled temp, d') := by
  simp only [step, ht, bind, StateT.bind, h]
  rfl

theorem step_reserved_error (ht : v.text = .ok text) (h : (Disk.writeText temp text troubles).run d = (.error e, d')) :
    v.step (.reserved temp) troubles d = (.broken temp e, d') := by
  simp only [step, ht, bind, StateT.bind, h]
  rfl

theorem step_filled_ok (h : (Disk.rename temp v.target troubles).run d = (.ok u, d')) :
    v.step (.filled temp) troubles d = (.finished (.ok ()), d') := by
  simp only [step, bind, StateT.bind, h]
  rfl

theorem step_filled_error (h : (Disk.rename temp v.target troubles).run d = (.error e, d')) :
    v.step (.filled temp) troubles d = (.broken temp e, d') := by
  simp only [step, bind, StateT.bind, h]
  rfl

theorem step_broken_ok (h : (Disk.unlink temp troubles).run d = (.ok u, d')) :
    v.step (.broken temp cause) troubles d = (.finished (.error (v.failed cause)), d') := by
  simp only [step, bind, StateT.bind, h]
  rfl

theorem step_broken_error (h : (Disk.unlink temp troubles).run d = (.error e, d')) :
    v.step (.broken temp cause) troubles d = (.finished (.error (v.failed e)), d') := by
  simp only [step, bind, StateT.bind, h]
  rfl

theorem advance_succ {stage stage' : Stage} (h : v.step stage troubles d = (stage', d')) (n : Nat) :
    v.advance (n + 1) stage troubles d = v.advance n stage' troubles d' := by
  simp only [advance, bind, StateT.bind, h]

theorem advance_finished (result : Except Failure Unit) (n : Nat) :
    v.advance n (.finished result) troubles d = (.finished result, d) := by
  induction n with
  | zero => rfl
  | succ n ih => exact (advance_succ rfl n).trans ih

theorem run_of_advance {result : Except Failure Unit}
    (h : v.advance stages .start troubles d = (.finished result, d')) :
    v.run troubles d = (result, d') := by
  simp only [run, bind, StateT.bind, h]
  rfl

theorem run_eq_unmade (h : (Disk.makeDirs (v.dir.child assetsDir) troubles).run d = (.error e, d')) :
    v.run troubles d = (.error (.disk e), d') :=
  run_of_advance ((advance_succ (step_start_error h) 4).trans (advance_finished _ 4))

theorem run_eq_unwritten (h : (Disk.makeDirs (v.dir.child assetsDir) troubles).run d = (.ok u, d'))
    (htext : v.text = .error f) :
    v.run troubles d = (.error (.write f), d') :=
  run_of_advance ((advance_succ (step_start_ok h) 4).trans
    ((advance_succ (step_prepared_refused htext) 3).trans (advance_finished _ 3)))

theorem run_eq_ok {d₁ d₂ d₃ d₄ : Disk} (hdirs : (Disk.makeDirs (v.dir.child assetsDir) troubles).run d = (.ok (), d₁))
    (htext : v.text = .ok text) (htemp : (Disk.createTemp v.dir troubles).run d₁ = (.ok temp, d₂))
    (hwrite : (Disk.writeText temp text troubles).run d₂ = (.ok (), d₃))
    (hmove : (Disk.rename temp v.target troubles).run d₃ = (.ok (), d₄)) : v.run troubles d = (.ok (), d₄) := by
  refine run_of_advance ?_
  calc v.advance stages .start troubles d
    _ = v.advance 4 .prepared troubles d₁ := advance_succ (step_start_ok hdirs) 4
    _ = v.advance 3 (.reserved temp) troubles d₂ := advance_succ (step_prepared_ok htext htemp) 3
    _ = v.advance 2 (.filled temp) troubles d₃ := advance_succ (step_reserved_ok htext hwrite) 2
    _ = v.advance 1 (.finished (.ok ())) troubles d₄ := advance_succ (step_filled_ok hmove) 1
    _ = (.finished (.ok ()), d₄) := advance_finished _ 1

theorem advance_broken (temp : Path) (cause : DiskFault) (n : Nat) :
    ∃ f d', v.advance (n + 1) (.broken temp cause) troubles d = (.finished (.error f), d') := by
  rcases hunlink : (Disk.unlink temp troubles).run d with ⟨e | u, d₁⟩
  · exact ⟨_, _, (advance_succ (step_broken_error hunlink) n).trans (advance_finished _ n)⟩
  · exact ⟨_, _, (advance_succ (step_broken_ok hunlink) n).trans (advance_finished _ n)⟩

theorem run_ok_cases (h : v.run troubles d = (.ok (), d')) :
    ∃ d₁ text temp d₂ d₃, (Disk.makeDirs (v.dir.child assetsDir) troubles).run d = (.ok (), d₁) ∧ v.text = .ok text ∧
      (Disk.createTemp v.dir troubles).run d₁ = (.ok temp, d₂) ∧
      (Disk.writeText temp text troubles).run d₂ = (.ok (), d₃) ∧ (Disk.rename temp v.target troubles).run d₃ = (.ok (), d') := by
  have hfail : ∀ {f : Failure} {d₁ : Disk}, v.advance stages .start troubles d ≠ (.finished (.error f), d₁) := by
    intro f d₁ hadvance
    rw [run_of_advance hadvance] at h
    cases h
  rcases hdirs : (Disk.makeDirs (v.dir.child assetsDir) troubles).run d with ⟨e | u, d₁⟩
  · exact absurd ((advance_succ (step_start_error hdirs) 4).trans (advance_finished _ 4)) hfail
  have hone := advance_succ (step_start_ok hdirs) 4
  cases htext : v.text with
  | error f =>
    have hstop : v.advance 4 .prepared troubles d₁ = v.advance 3 (.finished (.error (.write f))) troubles d₁ :=
      advance_succ (step_prepared_refused htext) 3
    exact absurd (hone.trans (hstop.trans (advance_finished _ 3))) hfail
  | ok text =>
    rcases htemp : (Disk.createTemp v.dir troubles).run d₁ with ⟨e | temp, d₂⟩
    · have hstop := advance_succ (step_prepared_error htext htemp) 3
      exact absurd (hone.trans (hstop.trans (advance_finished _ 3))) hfail
    have htwo := hone.trans (advance_succ (step_prepared_ok htext htemp) 3)
    rcases hwrite : (Disk.writeText temp text troubles).run d₂ with ⟨e | u, d₃⟩
    · obtain ⟨f, d₄, hbroken⟩ := v.advance_broken (d := d₃) temp e 1
      exact absurd (htwo.trans ((advance_succ (step_reserved_error htext hwrite) 2).trans hbroken)) hfail
    have hthree := htwo.trans (advance_succ (step_reserved_ok htext hwrite) 2)
    rcases hmove : (Disk.rename temp v.target troubles).run d₃ with ⟨e | u, d₄⟩
    · obtain ⟨f, d₅, hbroken⟩ := v.advance_broken (d := d₄) temp e 0
      exact absurd (hthree.trans ((advance_succ (step_filled_error hmove) 1).trans hbroken)) hfail
    rw [run_eq_ok hdirs htext htemp hwrite hmove] at h
    cases h
    exact ⟨d₁, text, temp, d₂, d₃, rfl, rfl, htemp, hwrite, hmove⟩

end Save

/-! ### Logging the end -/

/-- What is logged at the end of a save. -/
def Save.record? (v : Save) : Except Failure Unit → Option Log.Record
  | .ok () => some ⟨.debug, Store.logName, "Recipe saved to " ++ v.target.text⟩
  | .error (.store (.recipeNotWritten path cause)) =>
    some ⟨.error, Store.logName, "Failed to save recipe to " ++ path.text ++ ": " ++ cause.message⟩
  | .error _ => none

def Save.logged (v : Save) (result : Except Failure Unit) (w : Workspace) : Workspace :=
  (v.record? result).elim w fun rec => w.emit rec

theorem Save.logs_logged (v : Save) (result : Except Failure Unit) (w : Workspace) :
    Workspace.Logs w (v.logged result w) := by
  rw [logged]
  cases v.record? result with
  | none => exact .refl w
  | some rec => exact Workspace.logs_emit w rec

namespace Store

/-- Why a recipe is not saved at all. -/
def refusal? (r : Recipe) : Option StoreFault :=
  if r.project.id = "" then some .noProjectId
  else if isName r.project.id then none
  else some (.invalidName r.project.id)

/-- The save of a recipe with the given date. -/
def saving (s : Store) (r : Recipe) (now : Timestamp) : Save where
  dir := s.entryPath r.project.id
  text := ({ r with updatedAt := now } : Recipe).canonical.map (· ++ "\n")

theorem refusal_of_isName {r : Recipe} (h : isName r.project.id = true) : refusal? r = none := by
  have hne : r.project.id ≠ "" := by
    intro he
    rw [he] at h
    exact absurd h (by decide)
  rw [refusal?, if_neg hne, if_pos h]

theorem isName_of_refusal {r : Recipe} (h : refusal? r = none) : isName r.project.id = true := by
  rw [refusal?] at h
  split at h
  · cases h
  · split at h
    · assumption
    · cases h

theorem run_saveRecipe_refused {s : Store} {r : Recipe} {f : StoreFault} {troubles : Disk.Troubles}
    (h : refusal? r = some f) (w : Workspace) : (s.saveRecipe r troubles).run w = (.error (.store f), w) := by
  rw [refusal?] at h
  rw [saveRecipe]
  split at h
  · rename_i he
    obtain rfl := Option.some.inj h
    rw [if_pos he]
    rfl
  · rename_i he
    split at h
    · cases h
    · rename_i hname
      obtain rfl := Option.some.inj h
      rw [if_neg he, run_bind_ok (WorkM.run_now w)]
      exact run_bind_error (run_bind_error (run_checkName_refused hname w))

theorem run_saveRecipe_eq {s : Store} {r : Recipe} {w : Workspace} {d : Disk} {result : Except Failure Unit}
    {troubles : Disk.Troubles} (h : refusal? r = none) (hrun : (s.saving r w.now).run troubles w.disk = (result, d)) :
    (s.saveRecipe r troubles).run w = (result.map fun _ => { r with updatedAt := w.now },
      (s.saving r w.now).logged result { w with disk := d }) := by
  have hname := isName_of_refusal h
  have hne : r.project.id ≠ "" := by
    intro he
    rw [he] at hname
    exact absurd hname (by decide)
  rw [saveRecipe, if_neg hne, run_bind_ok (WorkM.run_now w), run_bind_ok (run_projectDir s hname w),
    run_bind_ok (run_get w)]
  have hrun' : (Save.mk (s.entryPath r.project.id)
      (({ r with updatedAt := w.now } : Recipe).canonical.map (· ++ "\n"))).run troubles w.disk = (result, d) := hrun
  dsimp only
  rw [hrun', run_bind_ok (run_set _ _)]
  cases result with
  | ok u => rfl
  | error f =>
    dsimp only
    cases f with
    | store fault => cases fault <;> rfl
    | _ => rfl

end Store

end Provision
