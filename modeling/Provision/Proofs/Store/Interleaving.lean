import Mathlib.Logic.Function.Basic
import Provision.Proofs.Store.Turns

/-!
# Saves side by side

Any number of saves run on one disk (`Race`), step by step in any order, each stopped anywhere, and a text may
be written in parts. Throughout, every temporary file belongs to one save, and the recipe of a project is what
it was at the start or the whole text of a save that has been finished (`Race.Kept`). One step keeps that
(`Race.Kept.act`), and so does every run (`recipe_whole`).
-/

namespace Provision

open Disk (IsPlain Alters)

/-- A recipe that is to be saved, and the time of the save. -/
structure Job where
  recipe : Recipe
  now : Timestamp

namespace Job

def id (j : Job) : String :=
  j.recipe.project.id

def save (s : Store) (j : Job) : Save :=
  s.saving j.recipe j.now

/-- What the file of the recipe is to hold. -/
def text (j : Job) : Except WriteFault String :=
  ({ j.recipe with updatedAt := j.now } : Recipe).canonical.map (· ++ "\n")

end Job

/-- Saves under way on one disk. -/
structure Race (ι : Type) where
  disk : Disk
  stage : ι → Save.Stage

namespace Race

/-- A save takes its next step, or only so many bytes of its text are written. -/
inductive Event (ι : Type) where
  | step (i : ι)
  | tear (i : ι) (size : Nat)

variable {ι : Type} [DecidableEq ι]

/-- One save is at another stage, on another disk. -/
def turned (r : Race ι) (i : ι) (stage : Save.Stage) (disk : Disk) : Race ι :=
  { disk, stage := Function.update r.stage i stage }

def act (saves : ι → Save) (r : Race ι) : Event ι → Race ι
  | .step i =>
    let (stage, disk) := (saves i).step (r.stage i) .none r.disk
    r.turned i stage disk
  | .tear i size =>
    match r.stage i, (saves i).text with
    | .reserved temp, .ok text =>
      { r with disk := ((Disk.write temp (.bytes (text.toUTF8.extract 0 size))).run r.disk).2 }
    | _, _ => r

def run (saves : ι → Save) (r : Race ι) (events : List (Event ι)) : Race ι :=
  events.foldl (act saves) r

/-- A recipe without a good id is refused before anything is done. -/
def start (jobs : ι → Job) (d : Disk) : Race ι where
  disk := d
  stage i :=
    match Store.refusal? (jobs i).recipe with
    | some f => .finished (.error (.store f))
    | none => .start

section

variable (r : Race ι) (i : ι) (stage : Save.Stage) (disk : Disk)

@[simp] theorem turned_disk : (r.turned i stage disk).disk = disk := rfl

@[simp] theorem turned_stage : (r.turned i stage disk).stage i = stage := Function.update_self ..

@[simp] theorem turned_self : r.turned i (r.stage i) r.disk = r := by
  rw [turned, Function.update_eq_self]

end

theorem turned_stage_of_ne {r : Race ι} {i j : ι} {stage : Save.Stage} {disk : Disk} (h : j ≠ i) :
    (r.turned i stage disk).stage j = r.stage j :=
  Function.update_of_ne h ..

/-! ### What every step keeps -/

/-- The recipe of the project is what it was, and no save of it is finished, or it is all of what a finished
one saved. -/
def Whole (s : Store) (jobs : ι → Job) (b : String) (d : Disk) (r : Race ι) : Prop :=
  (r.disk.root.get? (d.placeOf (s.recipePath b)) = d.root.get? (d.placeOf (s.recipePath b)) ∧
    ∀ i, (jobs i).id = b → r.stage i ≠ .finished (.ok ())) ∨
  ∃ i text, (jobs i).id = b ∧ r.stage i = .finished (.ok ()) ∧ (jobs i).text = .ok text ∧
    r.disk.locate (s.recipePath b) =
      .ok (.found (d.placeOf (s.recipePath b)) (.file 0o600 (.bytes text.toUTF8)))

/-- What holds of the race at every moment, seen from the recipe of one project. -/
structure Kept (s : Store) (jobs : ι → Job) (b : String) (d : Disk) (r : Race ι) : Prop where
  settled : s.Settled r.disk
  cwd : r.disk.cwd = d.cwd
  named : ∀ i, Store.isName (jobs i).id = true ∨ ∃ result, r.stage i = .finished result
  sound : ∀ i, ((jobs i).save s).Sound r.disk (r.stage i)
  own : ∀ i j temp temp', i ≠ j → (r.stage i).temp? = some temp → (r.stage j).temp? = some temp' →
    temp.names ≠ temp'.names
  whole : r.Whole s jobs b d

variable {s : Store} {jobs : ι → Job} {b : String} {d : Disk} {r : Race ι} {i : ι} {stage : Save.Stage} {d' : Disk}

omit [DecidableEq ι] in
theorem kept_start (jobs : ι → Job) (b : String) (h : s.Settled d) : (start jobs d).Kept s jobs b d := by
  have hnone : ∀ i, ((start jobs d).stage i).temp? = none := by
    intro i
    rw [start]
    dsimp only
    split <;> rfl
  refine ⟨h, rfl, fun i => ?_, fun i => Save.sound_of_none (hnone i), fun i j temp temp' _ ht => ?_, .inl ⟨rfl, ?_⟩⟩
  · cases hr : Store.refusal? (jobs i).recipe with
    | none => exact .inl (Store.isName_of_refusal hr)
    | some f =>
      right
      refine ⟨.error (.store f), ?_⟩
      simp only [start, hr]
  · cases (hnone i).symm.trans ht
  · intro i _
    rw [start]
    dsimp only
    split <;> exact nofun

theorem turn_of_act (h : r.Kept s jobs b d) (e : Event ι) :
    ∃ i stage d', r.act (fun i => (jobs i).save s) e = r.turned i stage d' ∧
      ((jobs i).save s).Turn r.disk (r.stage i) stage d' := by
  cases e with
  | step i =>
    rcases hstep : ((jobs i).save s).step (r.stage i) .none r.disk with ⟨stage, d'⟩
    refine ⟨i, stage, d', ?_, Save.turn_of_step (h.sound i) hstep⟩
    simp only [act, hstep]
  | tear i size =>
    refine ⟨i, r.stage i, ?_⟩
    rw [act]
    split
    · rename_i temp text hstage htext
      have hsound := h.sound i
      have hturn := Save.turn_of_write (hstage ▸ hsound) (text.toUTF8.extract 0 size)
      rw [← hstage] at hturn
      refine ⟨_, ?_, hturn⟩
      rw [turned, Function.update_eq_self]
    · exact ⟨r.disk, (r.turned_self i).symm, .rest⟩

theorem Kept.whole_of_turn (h : r.Kept s jobs b d) (hturn : ((jobs i).save s).Turn r.disk (r.stage i) stage d')
    (halters : Alters (fun l => ((jobs i).save s).Touches r.disk (r.stage i) l ∧
      (r.disk.placeOf (s.recipePath b) <+: l → (jobs i).id = b ∧ stage = .finished (.ok ()))) r.disk d')
    (hfinished : ∀ result, r.stage i ≠ .finished result) :
    Whole s jobs b d (r.turned i stage d') := by
  have hplace : r.disk.placeOf (s.recipePath b) = d.placeOf (s.recipePath b) := Disk.placeOf_of_cwd h.cwd _
  rw [hplace] at halters
  by_cases hdone : (jobs i).id = b ∧ stage = .finished (.ok ())
  · -- The save publishes its text.
    obtain ⟨hid, rfl⟩ := hdone
    obtain ⟨text, htext, hl⟩ := hturn.published h.settled.keyed (hfinished _)
    have htarget : ((jobs i).save s).target = s.recipePath b := by
      rw [← hid]
      rfl
    rw [htarget, hplace] at hl
    exact .inr ⟨i, text, hid, turned_stage .., htext, hl⟩
  · have hnot : ∀ l, (((jobs i).save s).Touches r.disk (r.stage i) l ∧
        (d.placeOf (s.recipePath b) <+: l → (jobs i).id = b ∧ stage = .finished (.ok ()))) →
        ¬ d.placeOf (s.recipePath b) <+: l := fun l hl hp => hdone (hl.2 hp)
    rcases h.whole with ⟨hsame, hnone⟩ | ⟨k, text, hid, hstage, htext, hl⟩
    · refine .inl ⟨(halters.node _ hnot).trans hsame, fun j hj => ?_⟩
      by_cases hji : j = i
      · subst hji
        rw [turned_stage]
        exact fun he => hdone ⟨hj, he⟩
      · rw [turned_stage_of_ne hji]
        exact hnone j hj
    · have hki : k ≠ i := by
        rintro rfl
        exact hfinished _ hstage
      refine .inr ⟨k, text, hid, ?_, htext, halters.locate_file hl fun hC => hnot _ hC (List.prefix_refl _)⟩
      rw [turned_stage_of_ne hki]
      exact hstage

omit [DecidableEq ι] in
theorem Kept.not_touched (h : r.Kept s jobs b d) {j : ι} (hj : j ≠ i) {temp : Path}
    (ht : (r.stage j).temp? = some temp) : ¬ ((jobs i).save s).Touches r.disk (r.stage i) temp.names := by
  intro htouch
  obtain ⟨c, howns⟩ := (h.sound j).owns ht
  rcases htouch with hnone | ⟨temp', ht', hnames⟩ | htarget
  · cases hnone.symm.trans howns.file
  · exact h.own j i temp temp' hj ht ht' hnames
  · exact howns.ne_target _ htarget.symm

omit [DecidableEq ι] in
/-- The temporary file of a save has a name of its own: it had it before, or the name was free. -/
theorem Kept.ne_of_turn (h : r.Kept s jobs b d) (hturn : ((jobs i).save s).Turn r.disk (r.stage i) stage d')
    {j : ι} (hj : j ≠ i) {temp temp' : Path} (ht : stage.temp? = some temp) (ht' : (r.stage j).temp? = some temp') :
    temp.names ≠ temp'.names := by
  rcases hturn.reserved_or_free ht with hold | hfree
  · exact h.own i j temp temp' hj.symm hold ht'
  · obtain ⟨c, howns⟩ := (h.sound j).owns ht'
    intro heq
    rw [heq] at hfree
    cases hfree.symm.trans howns.file

theorem Kept.own_of_turn (h : r.Kept s jobs b d) (hturn : ((jobs i).save s).Turn r.disk (r.stage i) stage d')
    (j k : ι) (temp temp' : Path) (hjk : j ≠ k) (ht : ((r.turned i stage d').stage j).temp? = some temp)
    (ht' : ((r.turned i stage d').stage k).temp? = some temp') : temp.names ≠ temp'.names := by
  by_cases hj : j = i
  · subst hj
    rw [turned_stage] at ht
    rw [turned_stage_of_ne hjk.symm] at ht'
    exact h.ne_of_turn hturn hjk.symm ht ht'
  · rw [turned_stage_of_ne hj] at ht
    by_cases hk : k = i
    · subst hk
      rw [turned_stage] at ht'
      exact (h.ne_of_turn hturn hj ht' ht).symm
    · rw [turned_stage_of_ne hk] at ht'
      exact h.own j k temp temp' hjk ht ht'

theorem Kept.turn (hb : Store.isName b = true) (hdot : b = "." → ∀ i, (jobs i).id ≠ Save.recipeFile)
    (h : r.Kept s jobs b d) (hturn : ((jobs i).save s).Turn r.disk (r.stage i) stage d') :
    Kept s jobs b d (r.turned i stage d') := by
  by_cases hfinished : ∃ result, r.stage i = .finished result
  · obtain ⟨result, hstage⟩ := hfinished
    rw [hstage] at hturn
    obtain ⟨rfl, rfl⟩ := hturn.eq_of_finished
    rwa [← hstage, turned_self]
  · have ha : Store.isName (jobs i).id = true := (h.named i).resolve_right hfinished
    have halters := hturn.alters ha hb (fun hb => hdot hb i) rfl h.settled
    have hwhole := h.whole_of_turn hturn halters fun result hstage => hfinished ⟨result, hstage⟩
    refine ⟨h.settled.of_alters halters, halters.cwd.trans h.cwd, fun j => ?_, fun j => ?_, h.own_of_turn hturn, hwhole⟩
    · by_cases hj : j = i
      · exact .inl (hj ▸ ha)
      · rw [turned_stage_of_ne hj]
        exact h.named j
    · by_cases hj : j = i
      · subst hj
        rw [turned_stage]
        exact hturn.sound (h.sound j)
      · rw [turned_stage_of_ne hj]
        exact (h.sound j).of_alters halters fun temp ht hC => h.not_touched hj ht hC.1

theorem Kept.act (hb : Store.isName b = true) (hdot : b = "." → ∀ i, (jobs i).id ≠ Save.recipeFile)
    (h : r.Kept s jobs b d) (e : Event ι) : (r.act (fun i => (jobs i).save s) e).Kept s jobs b d := by
  obtain ⟨i, stage, d', hact, hturn⟩ := turn_of_act h e
  rw [hact]
  exact h.turn hb hdot hturn

theorem Kept.run (hb : Store.isName b = true) (hdot : b = "." → ∀ i, (jobs i).id ≠ Save.recipeFile)
    (h : r.Kept s jobs b d) (events : List (Event ι)) :
    (r.run (fun i => (jobs i).save s) events).Kept s jobs b d := by
  induction events generalizing r with
  | nil => exact h
  | cons e events ih => exact ih (h.act hb hdot e)

/-- At every moment the recipe of a project is what it was at the start, or the whole text of a save that has been
finished; and once a save has been finished it is the latter. -/
theorem recipe_whole (s : Store) (jobs : ι → Job) (b : String) (d : Disk) (hd : s.Settled d)
    (hb : Store.isName b = true) (hdot : b = "." → ∀ i, (jobs i).id ≠ Save.recipeFile)
    (events : List (Event ι)) :
    ((start jobs d).run (fun i => (jobs i).save s) events).Whole s jobs b d :=
  ((kept_start jobs b hd).run hb hdot events).whole

def emptyDisk : Disk where
  root := .dir []
  cwd := []

def sampleStore : Store := ⟨⟨.relative, ["projects"]⟩⟩

/-- Two recipes of one project. -/
def sampleJobs (first : Bool) : Job :=
  ⟨Recipe.starter "p" (if first then "first" else "second") .epoch, .epoch⟩

def recipeJob (_ : Unit) : Job :=
  ⟨Recipe.starter Save.recipeFile "demo" .epoch, .epoch⟩

theorem settled_emptyDisk : sampleStore.Settled emptyDisk :=
  ⟨nofun, Node.keyed_empty, .inr (by decide)⟩

/-- Two saves of one project, by turns, one of them stopped after it has written a part of its text. -/
theorem recipe_whole_two :
    Store.isName "p" = true ∧ sampleStore.Settled emptyDisk ∧
      ((start sampleJobs emptyDisk).run (fun i => (sampleJobs i).save sampleStore)
        [.step true, .step false, .step true, .step false, .tear false 1, .step true, .step true]).Whole
          sampleStore sampleJobs "p" emptyDisk := by
  have hname : Store.isName "p" = true := by decide
  exact ⟨hname, settled_emptyDisk, recipe_whole sampleStore sampleJobs "p" emptyDisk settled_emptyDisk hname
    (fun h => absurd h (by decide)) _⟩

theorem disk_prepare : ((start recipeJob emptyDisk).run (fun i => (recipeJob i).save sampleStore) [.step ()]).disk =
    ⟨.dir [("projects", .dir [("recipe.json", .dir [("assets", .dir [])])])], [], none⟩ := by
  have hassets : ((recipeJob ()).save sampleStore).dir.child Save.assetsDir =
      ((⟨.relative, ["projects"]⟩ : Path).child Save.recipeFile).child Save.assetsDir := rfl
  have hproject : (⟨.relative, ["projects"]⟩ : Path).child Save.recipeFile =
      ⟨.relative, ["projects", "recipe.json"]⟩ := by decide
  have hfiles : (⟨.relative, ["projects", "recipe.json"]⟩ : Path).child Save.assetsDir =
      ⟨.relative, ["projects", "recipe.json", "assets"]⟩ := by decide
  have h1 : (Disk.makeDirs ⟨.relative, ["projects"]⟩).run emptyDisk =
      (.ok (), ⟨.dir [("projects", .dir [])], [], none⟩) :=
    Disk.run_makeDirs_absent (l := ["projects"]) ⟨by decide, by decide, rfl⟩
  have h2 : (Disk.makeDirs ⟨.relative, ["projects", "recipe.json"]⟩).run emptyDisk =
      (.ok (), ⟨.dir [("projects", .dir [("recipe.json", .dir [])])], [], none⟩) := by
    have hroom : (⟨.relative, ["projects"]⟩ : Path).Room 0 := ⟨by decide, by decide⟩
    have hroom' : ((⟨.relative, ["projects"]⟩ : Path).child Save.recipeFile).Room 0 := ⟨by decide, by decide⟩
    rw [← hproject, Disk.run_makeDirs_child h1 hroom Save.isEntry_recipeFile hroom', hproject]
    exact Disk.run_mkdirOk_absent (l := ["projects", "recipe.json"]) ⟨by decide, by decide, rfl⟩
  have h3 : (Disk.makeDirs (((recipeJob ()).save sampleStore).dir.child Save.assetsDir)).run emptyDisk =
      (.ok (), ⟨.dir [("projects", .dir [("recipe.json", .dir [("assets", .dir [])])])], [], none⟩) := by
    have hroom : (⟨.relative, ["projects", "recipe.json"]⟩ : Path).Room 0 := ⟨by decide, by decide⟩
    have hroom' : ((⟨.relative, ["projects", "recipe.json"]⟩ : Path).child Save.assetsDir).Room 0 :=
      ⟨by decide, by decide⟩
    rw [hassets, hproject, Disk.run_makeDirs_child h2 hroom Save.isEntry_assetsDir hroom', hfiles]
    exact Disk.run_mkdirOk_absent (l := ["projects", "recipe.json", "assets"]) ⟨by decide, by decide, rfl⟩
  have hstep : ((recipeJob ()).save sampleStore).step .start .none emptyDisk =
      (.prepared, ⟨.dir [("projects", .dir [("recipe.json", .dir [("assets", .dir [])])])], [], none⟩) :=
    Save.step_start_ok h3
  have hstart : (start recipeJob emptyDisk).stage () = .start := by
    have hname : Store.isName Save.recipeFile = true := by decide
    have hnone : Store.refusal? (recipeJob ()).recipe = none := Store.refusal_of_isName hname
    simp only [start, hnone]
  have hdisk : (start recipeJob emptyDisk).disk = emptyDisk := rfl
  simp only [run, List.foldl_cons, List.foldl_nil, act, hstart, hdisk, hstep, turned_disk]

/-- The directory of a project `recipe.json` is where the recipe of the project named by a single dot is. -/
theorem directory_at_recipe :
    Store.isName "." = true ∧
      emptyDisk.root.get? (emptyDisk.placeOf (sampleStore.recipePath ".")) = none ∧
      ((start recipeJob emptyDisk).run (fun i => (recipeJob i).save sampleStore)
        [.step ()]).disk.root.get? (emptyDisk.placeOf (sampleStore.recipePath ".")) =
          some (.dir [(Save.assetsDir, .dir [])]) ∧
      ¬ ((start recipeJob emptyDisk).run (fun i => (recipeJob i).save sampleStore)
        [.step ()]).Whole sampleStore recipeJob "." emptyDisk := by
  have hplace : emptyDisk.placeOf (sampleStore.recipePath ".") = ["projects", "recipe.json"] := by decide
  have hdir : ((start recipeJob emptyDisk).run (fun i => (recipeJob i).save sampleStore)
      [.step ()]).disk.root.get? (emptyDisk.placeOf (sampleStore.recipePath ".")) =
        some (.dir [(Save.assetsDir, .dir [])]) := by
    rw [hplace, disk_prepare]
    rfl
  refine ⟨by decide, by rw [hplace]; rfl, hdir, ?_⟩
  rintro (⟨hsame, -⟩ | ⟨i, text, hid, -⟩)
  · rw [hdir, hplace] at hsame
    cases hsame
  · have hne : Save.recipeFile ≠ "." := by decide
    exact hne hid

end Race

end Provision
