import Provision.Command.Run
import Provision.Proofs.Outcome

/-!
# Runs of commands

A run prepares a command from the words it is given and then performs it (`runMain_eq`). What a command writes is of
no account for how it ends, so its exit code is told by what it does on the workspace (`codeOf`).
-/

namespace Provision.Command

variable {α β ε : Type} {x : RunM α} {f : α → RunM β} {o o' : Output} {w w' : Workspace} {a : α} {e : Stop}
  {c : Context} {l : Line} {room : Room} {troubles : Disk.Troubles}

/-- How a computation ends, what has been written by then, and the workspace it leaves. -/
def ends (x : RunM α) (o : Output) (w : Workspace) : (Except Stop α × Output) × Workspace :=
  (x.run.run o).run w

theorem ends_bind (x : RunM α) (f : α → RunM β) (o : Output) (w : Workspace) :
    ends (x >>= f) o w =
      match ends x o w with
      | ((.ok a, o'), w') => ends (f a) o' w'
      | ((.error e, o'), w') => ((.error e, o'), w') := by
  change StateT.run (StateT.run (ExceptT.bindCont f (ends x o w).1.1) (ends x o w).1.2) (ends x o w).2 = _
  rcases ends x o w with ⟨⟨_ | _, _⟩, _⟩ <;> rfl

theorem ends_bind_ok (h : ends x o w = ((.ok a, o'), w')) : ends (x >>= f) o w = ends (f a) o' w' := by
  rw [ends_bind, h]

theorem ends_bind_error (h : ends x o w = ((.error e, o'), w')) : ends (x >>= f) o w = ((.error e, o'), w') := by
  rw [ends_bind, h]

theorem ends_work (y : WorkM ε α) (handle : ε → RunM α) (o : Output) (w : Workspace) :
    ends (work y handle) o w =
      match y.run w with
      | (.ok a, w') => ((.ok a, o), w')
      | (.error g, w') => ends (handle g) o w' := by
  have hget : ends (getThe Workspace) o w = ((.ok w, o), w) := rfl
  rw [work, ends_bind_ok hget]
  rcases y.run w with ⟨g | a, w'⟩ <;> rfl

theorem ends_work_ok {y : WorkM ε α} {handle : ε → RunM α} (h : y.run w = (.ok a, w')) :
    ends (work y handle) o w = ((.ok a, o), w') := by
  rw [ends_work, h]

theorem ends_work_error {y : WorkM ε α} {handle : ε → RunM α} {g : ε} (h : y.run w = (.error g, w')) :
    ends (work y handle) o w = ends (handle g) o w' := by
  rw [ends_work, h]

/-- The computation does nothing but write. -/
def Writes (x : RunM Unit) : Prop :=
  ∀ o w, ∃ o', ends x o w = ((.ok (), o'), w)

theorem Writes.bind {x y : RunM Unit} (hx : Writes x) (hy : Writes y) : Writes (x >>= fun _ => y) := by
  intro o w
  obtain ⟨o₁, h⟩ := hx o w
  obtain ⟨o₂, h'⟩ := hy o₁ w
  exact ⟨o₂, (ends_bind_ok h).trans h'⟩

theorem writes_say (line : String) : Writes (say line) :=
  fun _ _ => ⟨_, rfl⟩

theorem writes_sayAll (lines : List String) : Writes (sayAll lines) := by
  induction lines with
  | nil => exact fun o _ => ⟨o, rfl⟩
  | cons line lines ih => exact (writes_say line).bind ih

theorem writes_sayErrors (issues : List Issue) : Writes (sayErrors issues) := by
  rw [sayErrors]
  split
  · exact fun o _ => ⟨o, rfl⟩
  · exact (writes_say _).bind (writes_sayAll _)

theorem writes_sayWarnings (c : Context) (issues : List Issue) : Writes (sayWarnings c issues) := by
  rw [sayWarnings]
  split
  · exact fun o _ => ⟨o, rfl⟩
  · exact (writes_say _).bind (writes_sayAll _)

/-- The exit code of a run that has ended so. -/
def codeOf : Except Stop Unit → Nat
  | .ok () => 0
  | .error (.exit code) => code
  | .error (.usage _ _) => 2
  | .error (.crash _) => 1

/-- The computation ends with the exit code, and with no failure that is not reported. -/
def Exits (x : RunM Unit) (code : Nat) (o : Output) (w : Workspace) : Prop :=
  (ends x o w).1.1 = .error (.exit code) ∨ (code = 0 ∧ (ends x o w).1.1 = .ok ())

/-- The computation ends with a failure that is not reported. -/
def Crashes (x : RunM Unit) (o : Output) (w : Workspace) : Prop :=
  ∃ cause, (ends x o w).1.1 = .error (.crash cause)

theorem Writes.exits {x y : RunM Unit} {code : Nat} (hx : Writes x) (h : ∀ o, Exits y code o w) :
    Exits (x >>= fun _ => y) code o w := by
  obtain ⟨o', hrun⟩ := hx o w
  rw [Exits, ends_bind_ok hrun]
  exact h o'

theorem Writes.exits_zero {x : RunM Unit} (hx : Writes x) : Exits x 0 o w := by
  obtain ⟨o', hrun⟩ := hx o w
  exact .inr ⟨rfl, by rw [hrun]⟩

theorem exits_bind {code : Nat} {f : α → RunM Unit} (h : ends x o w = ((.ok a, o'), w'))
    (hf : Exits (f a) code o' w') : Exits (x >>= f) code o w := by
  rwa [Exits, ends_bind_ok h]

theorem crashes_bind {f : α → RunM Unit} (h : ends x o w = ((.ok a, o'), w')) (hf : Crashes (f a) o' w') :
    Crashes (x >>= f) o w := by
  rwa [Crashes, ends_bind_ok h]

theorem exits_throw (code : Nat) (o : Output) (w : Workspace) : Exits (throw (.exit code)) code o w :=
  .inl rfl

theorem exits_abort (message : String) (o : Output) (w : Workspace) : Exits (abort message) 1 o w :=
  (writes_say _).exits fun o => exits_throw 1 o w

/-- What an export is asked for by a command line. -/
def exportRequest (l : Line) : Bundle.Request where
  project := l.word 0
  target := (l.value? "out").map Path.ofString
  format := (l.value? "format").getD Bundle.Format.dir.name

/-- An export that ends with an outcome exits with success if the bundle was written. -/
theorem exits_exportProject {outcome : Bundle.Outcome}
    (h : (Bundle.exportProject c.store (exportRequest l) room troubles).run w = (.ok outcome, w')) (o : Output) :
    Exits (exportProject c l room troubles) (if outcome.isWritten then 0 else 1) o w := by
  refine exits_bind (ends_work_ok h) ?_
  cases l.has "json" with
  | true => exact (writes_say _).exits fun o => exits_throw _ o w'
  | false =>
    cases outcome with
    | written path issues => exact ((writes_say _).bind (writes_sayWarnings _ _)).exits_zero
    | refused issues => exact ((writes_say _).bind (writes_sayAll _)).exits fun o => exits_throw 1 o w'
    | failed error issues => exact exits_abort _ o w'

/-- A recipe file that is read and checked exits with success if there are no errors in it. -/
theorem exits_validate {r : Recipe} {issues : List Issue} {w₁ : Workspace}
    (hread : (Store.readRecipe (.ofString (l.word 0)) room troubles).run w = (.ok r, w₁))
    (hcheck : (Compile.check r room).run w₁ = (.ok issues, w')) (o : Output) :
    Exits (validate c l room troubles) (if hasErrors issues then 1 else 0) o w := by
  refine exits_bind (ends_work_ok hread) (exits_bind (ends_work_ok hcheck) ?_)
  cases l.has "json" with
  | true => exact (writes_say _).exits fun o => exits_throw _ o w'
  | false =>
    cases issues with
    | nil => exact (writes_say _).exits_zero
    | cons issue issues =>
      refine (writes_sayErrors _).exits fun o => (writes_sayWarnings _ _).exits fun o => ?_
      cases hasErrors (issue :: issues) with
      | true => exact exits_throw 1 o w'
      | false => exact .inr ⟨rfl, rfl⟩

theorem crashes_validate {r : Recipe} {f : Failure} {w₁ : Workspace}
    (hread : (Store.readRecipe (.ofString (l.word 0)) room troubles).run w = (.ok r, w₁))
    (hcheck : (Compile.check r room).run w₁ = (.error f, w')) (o : Output) :
    Crashes (validate c l room troubles) o w := by
  refine crashes_bind (ends_work_ok hread) ⟨.project f, ?_⟩
  have hcrash : ends (unhandled (Compile.check r room)) o w₁ = ((.error (.crash (.project f)), o), w') :=
    ends_work_error hcheck
  rw [ends_bind_error hcrash]

/-- What goes before a command is performed: the words are read, the configuration is loaded and the log set up. -/
def prepare (words : List String) (env : Configuration.Environment) : RunM (Context × Line × Name) := do
  needsWords .main words
  let l ← readLine .main words
  let (n, rest) ← resolve .main l.words
  let c ← start l env
  match n with
  | .projects =>
    needsWords .projects rest
    let g ← readLine .projects rest
    let (m, rest) ← resolve .projects g.words
    return (c, ← readLine m rest, m)
  | n => return (c, ← readLine n rest, n)

/-- The words are read, the configuration is loaded and the log is set up for a command. -/
def Prepared (words : List String) (env : Configuration.Environment) (w : Workspace) (c : Context) (l : Line)
    (n : Name) (o : Output) (w' : Workspace) : Prop :=
  ends (prepare words env) {} w.withoutLog = ((.ok (c, l, n), o), w')

theorem runMain_eq (words : List String) (env : Configuration.Environment) :
    runMain words env room troubles = prepare words env >>= fun x => perform x.1 x.2.1 x.2.2 room troubles := by
  simp only [runMain, prepare, bind_assoc]
  refine bind_congr fun _ => bind_congr fun _ => bind_congr fun named => bind_congr fun c => ?_
  obtain ⟨n, rest⟩ := named
  cases n <;> simp only [bind_assoc, pure_bind]

section

variable {words : List String} {env : Configuration.Environment} {n : Name}

/-- The exit code of a run and what has made it crash, once its command has been prepared. -/
theorem run_prepared (h : Prepared words env w c l n o w') :
    (((run words env room troubles).run w).1.exitCode = codeOf (ends (perform c l n room troubles) o w').1.1) ∧
      (((run words env room troubles).run w).1.crash.isSome = true ↔ Crashes (perform c l n room troubles) o w') := by
  have hrun : ends (runMain words env room troubles) {} w.withoutLog = ends (perform c l n room troubles) o w' := by
    rw [runMain_eq, ends_bind_ok h]
  have hresult : ((run words env room troubles).run w).1 =
      (resultOf (ends (runMain words env room troubles) {} w.withoutLog).1.1
        (ends (runMain words env room troubles) {} w.withoutLog).1.2
        (ends (runMain words env room troubles) {} w.withoutLog).2.console).unreturned := rfl
  rw [hresult, hrun, Crashes]
  rcases (ends (perform c l n room troubles) o w').1.1 with (code | ⟨m, fault⟩ | cause) | ⟨⟩ <;>
    simp [resultOf, Result.unreturned, codeOf]

/-- The run has ended with the exit code, and with no failure that is not reported. -/
def Result.EndsWith (r : Result) (code : Nat) : Prop :=
  r.exitCode = code ∧ r.crash = none

/-- The run has ended with a failure that is not reported. -/
def Result.EndsInCrash (r : Result) : Prop :=
  r.exitCode = 1 ∧ r.crash.isSome = true

theorem run_exits {code : Nat} (h : Prepared words env w c l n o w')
    (hexits : Exits (perform c l n room troubles) code o w') :
    ((run words env room troubles).run w).1.EndsWith code := by
  obtain ⟨hcode, hcrash⟩ := run_prepared h
  rw [Result.EndsWith, ← Option.not_isSome_iff_eq_none, hcode, hcrash, Crashes]
  rcases hexits with hexits | ⟨rfl, hexits⟩ <;> simp [hexits, codeOf]

theorem run_crashes (h : Prepared words env w c l n o w') (hcrashes : Crashes (perform c l n room troubles) o w') :
    ((run words env room troubles).run w).1.EndsInCrash := by
  obtain ⟨hcode, hcrash⟩ := run_prepared h
  obtain ⟨cause, hcause⟩ := hcrashes
  rw [Result.EndsInCrash, hcode, hcrash, hcause]
  exact ⟨rfl, cause, hcause⟩

end

end Provision.Command
