import Provision.Compile
import Provision.Proofs.Json.Readable
import Provision.Proofs.Step.Checking
import Provision.Proofs.Workspace
import Provision.Recipe.Decode

/-!
# Recipes that cannot be checked or compiled

A recipe can be checked if its required settings have texts. Compiling it then ends with artifacts, or with
a failure that has a report, unless a setting is nested too deep for a text: `reported_iff`. Of the steps
that have no block the first counts, since writing the script stops there.
-/

namespace Provision

variable {s : Step} {k : Kind} {config : Members} {r : Recipe} {steps : List Step} {w : Workspace} {room : Room}

/-- The settings that the kind of a step requires all have texts. A step of no known kind requires none. -/
def Step.IsCheckable (s : Step) (room : Room := .standard) : Prop :=
  ∀ k, s.kind? = some k → ∀ key ∈ k.required, (s.config.value key).HasText room.checks

def Recipe.IsCheckable (r : Recipe) (room : Room := .standard) : Prop :=
  ∀ s ∈ r.steps, s.IsCheckable room

theorem Kind.mode_mem_required (h : k.modes.isEmpty = false) : "mode" ∈ k.required := by
  revert h
  cases k <;> decide

namespace Check

theorem exists_step_iff : (∃ issues, step s room = .ok issues) ↔ s.IsCheckable room := by
  cases hk : s.kind? with
  | none =>
    refine ⟨fun _ k hk' => ?_, fun _ => ⟨_, by rw [step, hk]⟩⟩
    cases hk.symm.trans hk'
  | some k =>
    rw [exists_step hk]
    constructor
    · rintro ⟨htexts, -⟩ k' hk' key hkey
      cases hk.symm.trans hk'
      exact Json.exists_text_iff.1 (htexts key hkey)
    · intro h
      have htexts : ∀ key ∈ k.required, ∃ t, (s.config.value key).text room.checks = .ok t :=
        fun key hkey => Json.exists_text_iff.2 (h k hk key hkey)
      exact ⟨htexts, fun hmodes => htexts "mode" (Kind.mode_mem_required hmodes)⟩

theorem exists_steps_iff :
    (∃ issues, Check.steps steps room = .ok issues) ↔ ∀ s ∈ steps, s.IsCheckable room := by
  induction steps with
  | nil => exact ⟨fun _ => nofun, fun _ => ⟨[], rfl⟩⟩
  | cons s steps ih =>
    rw [List.forall_mem_cons, ← ih, ← exists_step_iff]
    simp only [Check.steps, Except.bind_eq_ok]
    constructor
    · rintro ⟨_, here, hhere, later, hlater, -⟩
      exact ⟨⟨here, hhere⟩, later, hlater⟩
    · rintro ⟨⟨here, hhere⟩, later, hlater⟩
      exact ⟨here ++ later, here, hhere, later, hlater, rfl⟩

theorem exists_recipe_iff : (∃ issues, Check.recipe r room = .ok issues) ↔ r.IsCheckable room :=
  exists_steps_iff

section

variable {room' : Room} {issues : List Issue} (hle : room.checks ≤ room'.checks)

include hle

theorem isUnset_mono {key : String} {missing : Bool} (h : isUnset config key room = .ok missing) :
    isUnset config key room' = .ok missing := by
  obtain ⟨t, ht, rfl⟩ := Except.map_eq_ok.1 h
  exact Except.map_eq_ok.2 ⟨t, Json.textWithin_mono hle ht, rfl⟩

theorem unset_mono {keys missing : List String} (h : unset config keys room = .ok missing) :
    unset config keys room' = .ok missing := by
  induction keys generalizing missing with
  | nil => exact h
  | cons key keys ih =>
    obtain ⟨first, hfirst, h⟩ := Except.bind_eq_ok.1 h
    obtain ⟨rest, hrest, h⟩ := Except.bind_eq_ok.1 h
    exact Except.bind_eq_ok.2 ⟨first, isUnset_mono hle hfirst, Except.bind_eq_ok.2 ⟨rest, ih hrest, h⟩⟩

theorem hasBadMode_mono {bad : Bool} (h : hasBadMode k config room = .ok bad) :
    hasBadMode k config room' = .ok bad := by
  unfold hasBadMode at h ⊢
  split at h
  · rwa [if_pos ‹_›]
  · rw [if_neg ‹_›]
    obtain ⟨t, ht, rfl⟩ := Except.map_eq_ok.1 h
    exact Except.map_eq_ok.2 ⟨t, Json.textWithin_mono hle ht, rfl⟩

theorem step_mono (h : step s room = .ok issues) : step s room' = .ok issues := by
  unfold step at h ⊢
  split at h
  · exact h
  · obtain ⟨missing, hmissing, h⟩ := Except.bind_eq_ok.1 h
    obtain ⟨bad, hbad, h⟩ := Except.bind_eq_ok.1 h
    exact Except.bind_eq_ok.2 ⟨missing, unset_mono hle hmissing,
      Except.bind_eq_ok.2 ⟨bad, hasBadMode_mono hle hbad, h⟩⟩

theorem steps_mono (h : Check.steps steps room = .ok issues) : Check.steps steps room' = .ok issues := by
  induction steps generalizing issues with
  | nil => exact h
  | cons s steps ih =>
    obtain ⟨here, hhere, h⟩ := Except.bind_eq_ok.1 h
    obtain ⟨later, hlater, h⟩ := Except.bind_eq_ok.1 h
    exact Except.bind_eq_ok.2 ⟨here, step_mono hle hhere, Except.bind_eq_ok.2 ⟨later, ih hlater, h⟩⟩

end

theorem recipe_unique {room' : Room} {issues issues' : List Issue} (h : Check.recipe r room = .ok issues)
    (h' : Check.recipe r room' = .ok issues') : issues = issues' := by
  rcases Nat.le_total room.checks room'.checks with hle | hle
  · exact Except.ok.inj ((steps_mono hle h).symm.trans h')
  · exact Except.ok.inj (h.symm.trans (steps_mono hle h'))

end Check

/-- A setting that the kind of the step declares is nested too deep for its form. -/
def Step.IsTooDeep (s : Step) (room : Room := .standard) : Prop :=
  ∃ k, s.kind? = some k ∧ ∃ d ∈ k.settings, d.2.read (s.config.get? d.1) (room.forms d.2) = .error .tooDeep

/-- A step is too deep, and all steps before it have blocks. -/
def Recipe.IsTooDeep (r : Recipe) (room : Room := .standard) : Prop :=
  ∃ before s after, r.steps = before ++ s :: after ∧ (∀ b ∈ before, ∃ f, Fragment.ofStep b room = .ok f) ∧
    s.IsTooDeep room

theorem Settings.read_eq_tooDeep :
    Settings.read k config room = .error .tooDeep ↔
      ∃ d ∈ k.settings, d.2.read (config.get? d.1) (room.forms d.2) = .error .tooDeep := by
  rw [← any_isTooDeep, read]
  dsimp only
  split
  · simp [*]
  · split <;> simp [*]

theorem Fragment.ofStep_eq_tooDeep : Fragment.ofStep s room = .error .tooDeep ↔ s.IsTooDeep room := by
  rw [Fragment.ofStep, Step.IsTooDeep]
  cases hk : s.kind? with
  | none => simp
  | some k =>
    simp only [Option.some.injEq, exists_eq_left', ← Settings.read_eq_tooDeep, Action.read]
    cases Settings.read k s.config room <;> simp [Except.map]

theorem Installer.fragments_eq_tooDeep :
    Installer.fragments steps room = .error .tooDeep ↔ ∃ before s after, steps = before ++ s :: after ∧
      (∀ b ∈ before, ∃ f, Fragment.ofStep b room = .ok f) ∧ s.IsTooDeep room := by
  induction steps with
  | nil => simp [Installer.fragments]
  | cons s steps ih =>
    simp only [Installer.fragments, Except.bind_eq_error, ih, Fragment.ofStep_eq_tooDeep]
    constructor
    · rintro (hdeep | ⟨f, hf, ⟨before, s', after, rfl, hbefore, hdeep⟩ | ⟨_, -, hpure⟩⟩)
      · exact ⟨[], s, steps, rfl, List.forall_mem_nil _, hdeep⟩
      · exact ⟨s :: before, s', after, rfl, List.forall_mem_cons.2 ⟨⟨f, hf⟩, hbefore⟩, hdeep⟩
      · cases hpure
    · rintro ⟨_ | ⟨b, before⟩, s', after, heq, hbefore, hdeep⟩
      · cases heq
        exact .inl hdeep
      · cases heq
        obtain ⟨⟨f, hf⟩, hbefore⟩ := List.forall_mem_cons.1 hbefore
        exact .inr ⟨f, hf, .inl ⟨before, s', after, rfl, hbefore, hdeep⟩⟩

/-! ### Compilation -/

namespace Artifacts

variable {t : Moment}

/-- Of the faults of a compilation, only values that are too deep, and those found by the checks, have no
report. -/
theorem isSome_report_iff {f : CompileFault} (h : ofRecipe r t room = .error f) :
    f.report?.isSome ↔ r.IsCheckable room ∧ ¬ r.IsTooDeep room := by
  rw [← Check.exists_recipe_iff, Recipe.IsTooDeep, ← Installer.fragments_eq_tooDeep]
  cases hi : Check.recipe r room with
  | error e =>
    rw [ofRecipe, checked, hi] at h
    cases h
    simp [CompileFault.report?]
  | ok issues =>
    cases hf : Installer.fragments r.steps room with
    | error e =>
      simp only [ofRecipe, checked, script, Installer.script, hi, hf] at h
      cases h
      cases e <;> simp [CompileFault.ofSettings, CompileFault.report?]
    | ok fs =>
      cases hc : r.canonical with
      | ok text =>
        simp only [ofRecipe, checked, script, Installer.script, canonical, hi, hf, hc] at h
        cases h
      | error e =>
        simp only [ofRecipe, checked, script, Installer.script, canonical, hi, hf, hc] at h
        cases h
        simp [CompileFault.report?]

theorem of_eq_ok {a : Artifacts} (h : ofRecipe r t room = .ok a) : r.IsCheckable room ∧ ¬ r.IsTooDeep room := by
  obtain ⟨issues, hi, h⟩ := Except.bind_eq_ok.1 h
  obtain ⟨text, htext, -⟩ := Except.bind_eq_ok.1 h
  rw [Recipe.IsTooDeep, ← Installer.fragments_eq_tooDeep]
  refine ⟨Check.exists_recipe_iff.1 ⟨issues, ?_⟩, fun hdeep => ?_⟩
  · rw [checked] at hi
    cases hr : Check.recipe r room <;> rw [hr] at hi <;> cases hi
    rfl
  · rw [script, Installer.script, hdeep] at htext
    cases htext

end Artifacts

namespace Compile

/-- The outcome is a result, or a failure of the compilation that has a report. -/
def Reported {α : Type} : Except Failure α → Prop
  | .ok _ => True
  | .error (.compile f) => f.report?.isSome
  | .error _ => False

theorem run_check (r : Recipe) (w : Workspace) (room : Room := .standard) :
    ∃ w', Workspace.Logs w w' ∧
      (check r room).run w = ((Check.recipe r room).mapError (.compile ∘ .unreadable), w') := by
  rw [check]
  cases Check.recipe r room with
  | error f => exact ⟨w, .refl w, rfl⟩
  | ok issues => exact ⟨_, Workspace.logs_emitAll w [checkedRecord r issues], rfl⟩

theorem run_compile (r : Recipe) (t : Option Moment) (w : Workspace) (room : Room := .standard) :
    ∃ w', Workspace.Logs w w' ∧ (compile r t room).run w =
      ((Artifacts.ofRecipe r (t.getD (.ofTimestamp w.now)) room).mapError .compile, w') := by
  have hlogs := Workspace.logs_emitAll w (records r room)
  refine ⟨_, hlogs, ?_⟩
  have hrecords : (emitAll (records r room)).run w =
      (.ok (), (records r room).foldl (fun w rec => w.emit rec) w) := rfl
  rw [compile, run_bind_ok hrecords, run_bind_ok (WorkM.run_now _), hlogs.now]
  cases Artifacts.ofRecipe r (t.getD (.ofTimestamp w.now)) room <;> rfl

theorem check_eq_ok {issues : List Issue} {w' : Workspace} (h : (check r room).run w = (.ok issues, w')) :
    Check.recipe r room = .ok issues ∧ Workspace.Logs w w' := by
  obtain ⟨w₁, hlogs, hrun⟩ := run_check r w room
  obtain ⟨hfound, rfl⟩ := Prod.mk.inj (h.symm.trans hrun)
  exact ⟨Except.mapError_eq_ok.1 hfound.symm, hlogs⟩

theorem compile_eq_ok {t : Option Moment} {a : Artifacts} {w' : Workspace}
    (h : (compile r t room).run w = (.ok a, w')) :
    Artifacts.ofRecipe r (t.getD (.ofTimestamp w.now)) room = .ok a ∧ Workspace.Logs w w' := by
  obtain ⟨w₁, hlogs, hrun⟩ := run_compile r t w room
  obtain ⟨hcompiled, rfl⟩ := Prod.mk.inj (h.symm.trans hrun)
  exact ⟨Except.mapError_eq_ok.1 hcompiled.symm, hlogs⟩

theorem exists_check_iff (r : Recipe) (w : Workspace) (room : Room := .standard) :
    (∃ issues, ((check r room).run w).1 = .ok issues) ↔ r.IsCheckable room := by
  obtain ⟨w', -, hcheck⟩ := run_check r w room
  rw [hcheck, ← Check.exists_recipe_iff]
  exact exists_congr fun _ => Except.mapError_eq_ok

theorem reported_compile_iff (r : Recipe) (t : Option Moment) (w : Workspace) (room : Room := .standard) :
    Reported ((compile r t room).run w).1 ↔ r.IsCheckable room ∧ ¬ r.IsTooDeep room := by
  obtain ⟨w', -, hcompile⟩ := run_compile r t w room
  rw [hcompile]
  cases ha : Artifacts.ofRecipe r (t.getD (.ofTimestamp w.now)) room with
  | error f => exact Artifacts.isSome_report_iff ha
  | ok a => exact iff_of_true trivial (Artifacts.of_eq_ok ha)

/-- Whatever room there is for calls: a recipe can be checked exactly if all settings that its steps require have
texts. Compiling it gives a result or a reported failure exactly if, moreover, no setting is too deep where the
script gets to it. -/
theorem reported_iff (room : Room) (r : Recipe) (t : Option Moment) (w : Workspace) :
    ((∃ issues, ((check r room).run w).1 = .ok issues) ↔ r.IsCheckable room) ∧
      (Reported ((compile r t room).run w).1 ↔ r.IsCheckable room ∧ ¬ r.IsTooDeep room) :=
  ⟨exists_check_iff r w room, reported_compile_iff r t w room⟩

end Compile

/-- A recipe that deletes lines, with any value where the way to match them is named. -/
def deletingRecipe (mode : Json) : Recipe where
  schemaVersion := Recipe.currentSchema
  project := { id := "p", name := "n" }
  vars := []
  steps := [
    { id := "s", name := "n", type := "delete_lines",
      config := [("file", .str "/etc/hosts"), ("match", .str "a"), ("mode", mode)] }]
  updatedAt := .epoch

def deletingDocument (mode : Json) : Json :=
  .obj [("project", .obj [("id", .str "p"), ("name", .str "n")]),
    ("steps", .arr [.obj [("id", .str "s"), ("name", .str "n"), ("type", .str "delete_lines"),
      ("config", .obj [("file", .str "/etc/hosts"), ("match", .str "a"), ("mode", mode)])]])]

/-- A value without a text stops the checks, and ends a compilation without a report. -/
theorem Compile.unreported_of_noText (room : Room) {mode : Json} (h : ¬ mode.HasText room.checks)
    (t : Option Moment) (w : Workspace) :
    (¬ ∃ issues, ((Compile.check (deletingRecipe mode) room).run w).1 = .ok issues) ∧
      ¬ Reported ((Compile.compile (deletingRecipe mode) t room).run w).1 := by
  have hstuck : ¬ (deletingRecipe mode).IsCheckable room := fun hcheckable =>
    h (hcheckable _ (List.mem_singleton_self _) .deleteLines rfl "mode" (by decide))
  exact ⟨mt (exists_check_iff _ w room).1 hstuck,
    fun hreported => hstuck ((reported_compile_iff _ t w room).1 hreported).1⟩

/-- Lists inside each other, the innermost of them empty. -/
def Json.nestedLists : Nat → Json
  | 0 => .arr []
  | n + 1 => .arr [nestedLists n]

theorem Json.calls_nestedLists (n : Nat) : (nestedLists n).calls = listCalls * (n + 1) := by
  induction n with
  | zero => rfl
  | succ n ih => rw [nestedLists, calls, callsOfItems, callsOfItems, ih, Nat.max_zero, Nat.add_comm, ← Nat.mul_succ]

theorem Json.not_hasText_nestedLists {room n : Nat} (h : room < listCalls * (n + 1)) :
    ¬ (nestedLists n).HasText room := by
  intro htext
  have hcalls := htext.calls
  rw [calls_nestedLists] at hcalls
  omega

/-- Six hundred lists inside each other are read, and are no text where less than 1800 calls have room. -/
theorem Compile.unreported_nesting :
    ∃ r, Recipe.ofJson .epoch (deletingDocument (Json.nestedLists 599)) = .ok r ∧
      ∀ room : Room, room.checks < 1800 → ∀ (t : Option Moment) (w : Workspace),
        (¬ ∃ issues, ((Compile.check r room).run w).1 = .ok issues) ∧
          ¬ Compile.Reported ((Compile.compile r t room).run w).1 :=
  ⟨deletingRecipe (Json.nestedLists 599), rfl, fun room hroom =>
    unreported_of_noText room (Json.not_hasText_nestedLists hroom)⟩

end Provision
