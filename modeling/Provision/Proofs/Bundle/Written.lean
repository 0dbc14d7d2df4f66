import Provision.Proofs.Bundle.Files
import Provision.Proofs.Script.Faults
import Provision.Proofs.Store.Reading

/-!
# What an export leaves behind

The files of a bundle are followed from the phase that writes each to the end of the export
(`install_files`), and an export that has written a bundle is taken apart into its phases
(`exportRecipe_eq_written`).
-/

namespace Provision

open Disk (LeadsTo Below HasFile)
open Workspace (Logs)

namespace Bundle

variable {s : Store} {r : Recipe} {a : Artifacts} {target path : Path} {w w' : Workspace}
  {place : List String} {name text : String} {u : Unit}

theorem leadsTo_emit (h : w.disk.LeadsTo target place) (rec : Log.Record) :
    (w.emit rec).disk.LeadsTo target place :=
  (Workspace.logs_emit w rec).disk.leadsTo h

theorem hasFile_emit {p : Path} {l : List String} {c : Content} (h : w.disk.HasFile p l c)
    (hl : w.disk.held ≠ some l) (rec : Log.Record) : (w.emit rec).disk.HasFile p l c :=
  h.of_keeps (Workspace.keeps_emit hl rec)

theorem writeBundle_phases (h : (s.writeBundle r target (some text)).run w = (.ok u, w')) :
    ∃ d₁ d₂ d₃, (Disk.makeDirs (target.child Save.assetsDir)).run w.disk = (.ok (), d₁) ∧
      (Disk.write (target.child Save.recipeFile) (.bytes text.toUTF8)).run d₁ = (.ok (), d₂) ∧
      (Store.copyFiles (s.assetsPath r.project.id) (target.child Save.assetsDir)).run d₂ = (.ok (), d₃) ∧
      w' = ({ w with disk := d₃ } : Workspace).emit
        ⟨.debug, Store.logName, "Bundle files written to " ++ target.text⟩ := by
  obtain ⟨_, w₁, h1, h⟩ := run_bind_eq_ok.1 h
  obtain ⟨d₁, hdirs, rfl⟩ := WorkM.onDisk_eq_ok h1
  obtain ⟨t, w₂, ht, h⟩ := run_bind_eq_ok.1 h
  cases ht
  obtain ⟨_, w₃, h3, h⟩ := run_bind_eq_ok.1 h
  obtain ⟨d₂, hwrite, rfl⟩ := WorkM.onDisk_eq_ok h3
  obtain ⟨_, w₄, h4, h⟩ := run_bind_eq_ok.1 h
  obtain ⟨d₃, hcopy, rfl⟩ := WorkM.onDisk_eq_ok h4
  cases h
  exact ⟨d₁, d₂, d₃, hdirs, hwrite, hcopy, rfl⟩

theorem writeBundle_eq_ok (h : (s.writeBundle r target (some text)).run w = (.ok u, w')) :
    ∃ place, w'.disk.LeadsTo target place ∧ w'.disk.held = w.disk.held ∧ w'.now = w.now ∧
      (w.disk.held ≠ some (place ++ [Save.recipeFile]) →
        w'.disk.HasFile (target.child Save.recipeFile) (place ++ [Save.recipeFile])
          (.bytes text.toUTF8)) := by
  obtain ⟨d₁, d₃, d₄, hdirs, hwrite, hcopy, rfl⟩ := writeBundle_phases h
  obtain ⟨spot, mode, hput⟩ := Disk.putsFile_of_write hwrite
  obtain ⟨place, hq, rfl⟩ := Disk.leadsTo_of_child Save.isEntry_recipeFile.single (by decide) hput.spot
  have hput' : Disk.Keeps [] d₁ d₃ := hput.keeps (by simp)
  have hkeeps := keeps_copyFiles List.mem_cons_self (hq.of_keeps hput') hcopy
  have hheld : d₄.held = w.disk.held :=
    hkeeps.held.trans (hput'.held.trans ((Disk.keeps_makeDirs (l := []) _).of_run hdirs).held)
  refine ⟨place, leadsTo_emit ((hq.of_keeps hput').of_keeps hkeeps) _, ?_, ?_, fun hlog => ?_⟩
  · exact (Workspace.logs_emit _ _).held.trans hheld
  · exact (Workspace.logs_emit _ _).now
  · have hlog' : d₄.held ≠ some (place ++ [Save.recipeFile]) := hheld ▸ hlog
    exact hasFile_emit (hput.hasFile.of_keeps hkeeps) hlog' _

theorem writeScripts_eq_ok {d d' : Disk} (hq : d.LeadsTo target place)
    (h : (writeScripts target a).run d = (.ok u, d')) :
    d'.HasFile (target.child scriptFile) (place ++ [scriptFile]) (.bytes a.installSh.toUTF8) ∧
      d'.HasFile (target.child notesFile) (place ++ [notesFile]) (.bytes a.readme.toUTF8) ∧
      Disk.Keeps (place ++ [Save.recipeFile]) d d' := by
  obtain ⟨d₁, h1, h2⟩ : ∃ d₁,
      (do
        Disk.writeText (target.child scriptFile) a.installSh
        Disk.chmod (target.child scriptFile) 0o755 : DiskM Unit).run d = (.ok (), d₁) ∧
      (do
        Disk.writeText (target.child notesFile) a.readme
        Disk.chmod (target.child notesFile) 0o644 : DiskM Unit).run d₁ = (.ok (), d') := by
    obtain ⟨u₁, d₁, h1, h⟩ := run_bind_eq_ok.1 h
    obtain ⟨u₂, d₂, h2, h⟩ := run_bind_eq_ok.1 h
    exact ⟨d₂, run_bind_eq_ok.2 ⟨u₁, d₁, h1, h2⟩, h⟩
  obtain ⟨hscript, hk1⟩ := hasFile_of_writeText hq isEntry_scriptFile.single (by decide) h1
  have hne : ∀ {x y : String}, x ≠ y → place ++ [x] ≠ place ++ [y] := fun hxy he =>
    hxy (List.cons.inj (List.append_cancel_left he)).1
  have hrecipe := hk1 (place ++ [Save.recipeFile]) (hne (by decide))
  obtain ⟨hnotes, hk2⟩ := hasFile_of_writeText (hq.of_keeps hrecipe) isEntry_notesFile.single (by decide) h2
  exact ⟨hscript.of_keeps (hk2 _ (hne (by decide))), hnotes,
    hrecipe.trans (hk2 _ (hne (by decide)))⟩

theorem held_clear {d d' : Disk} (h : (clear target).run d = (.ok u, d')) {l : List String}
    (hl : d'.held = some l) : d.held = some l := by
  obtain ⟨b, d₁, h1, h2⟩ := run_bind_eq_ok.1 h
  obtain rfl := (Disk.readOnly_pathExists target).run_eq h1
  cases b with
  | false => cases h2; exact hl
  | true => exact (Disk.held_removeTree target).of_run h2 l hl

/-- What is at the target is cleared, the bundle and its scripts are written, and an archive is made of that if it is
asked for. -/
theorem install_eq_ok {format : Format} (h : (install s r a target format).run w = (.ok path, w')) :
    ∃ d₁ w₂ d₃, (clear target).run w.disk = (.ok (), d₁) ∧
      (s.writeBundle r target (some a.recipeJson)).run { w with disk := d₁ } = (.ok (), w₂) ∧
      (writeScripts target a).run w₂.disk = (.ok (), d₃) ∧
      (format = .dir ∧ path = target ∧ w' = { w₂ with disk := d₃ } ∨
        format = .tarGz ∧ ∃ d, (pack target).run d₃ = (.ok path, d) ∧ w' = { w₂ with disk := d }) := by
  obtain ⟨_, w₁, h1, h⟩ := run_bind_eq_ok.1 h
  obtain ⟨d₁, hclear, rfl⟩ := WorkM.onDisk_eq_ok h1
  obtain ⟨_, w₂, h2, h⟩ := run_bind_eq_ok.1 h
  obtain ⟨_, w₃, h3, h⟩ := run_bind_eq_ok.1 h
  obtain ⟨d₃, hscripts, rfl⟩ := WorkM.onDisk_eq_ok h3
  refine ⟨d₁, w₂, d₃, hclear, h2, hscripts, ?_⟩
  cases format with
  | dir =>
    cases h
    exact .inl ⟨rfl, rfl, rfl⟩
  | tarGz =>
    obtain ⟨d, hpack, rfl⟩ := WorkM.onDisk_eq_ok h
    exact .inr ⟨rfl, d, hpack, rfl⟩

theorem install_files {format : Format}
    (h : (install s r a target format).run w = (.ok path, w')) :
    ∃ place, w'.disk.LeadsTo target place ∧ w'.now = w.now ∧
      (∀ l, w'.disk.held = some l → w.disk.held = some l) ∧
      ((∀ name ∈ files, w.disk.held ≠ some (place ++ [name])) →
        w'.disk.HasFile (target.child Save.recipeFile) (place ++ [Save.recipeFile])
            (.bytes a.recipeJson.toUTF8) ∧
          w'.disk.HasFile (target.child scriptFile) (place ++ [scriptFile])
            (.bytes a.installSh.toUTF8) ∧
          w'.disk.HasFile (target.child notesFile) (place ++ [notesFile])
            (.bytes a.readme.toUTF8)) := by
  obtain ⟨d₁, w₂, d₃, hclear, hbundle, hscripts, hformat⟩ := install_eq_ok h
  obtain ⟨place, hq, hheld, hnow, hrecipe⟩ := writeBundle_eq_ok hbundle
  obtain ⟨hscript, hnotes, hkeeps⟩ := writeScripts_eq_ok hq hscripts
  -- The last phase leaves what the others have written.
  obtain ⟨d₄, rfl, hlast⟩ : ∃ d₄, w' = { w₂ with disk := d₄ } ∧
      ∀ name ∈ files, Disk.Keeps (place ++ [name]) d₃ d₄ := by
    rcases hformat with ⟨-, -, rfl⟩ | ⟨-, d₄, hpack, rfl⟩
    · exact ⟨d₃, rfl, fun _ _ => .refl _ _⟩
    · exact ⟨d₄, rfl, fun name hname => keeps_pack hname hpack⟩
  have hrec : Save.recipeFile ∈ files := by simp [files]
  have hlastr := hlast _ hrec
  refine ⟨place, (hq.of_keeps hkeeps).of_keeps hlastr, hnow, fun l hl => ?_, fun hlog => ?_⟩
  · refine held_clear hclear ?_
    rw [← hl, ← hheld, ← hkeeps.held, ← hlastr.held]
  · have hlog' : d₁.held ≠ some (place ++ [Save.recipeFile]) := fun he =>
      hlog _ hrec (held_clear hclear he)
    exact ⟨((hrecipe hlog').of_keeps hkeeps).of_keeps hlastr,
      hscript.of_keeps (hlast _ (by simp [files])), hnotes.of_keeps (hlast _ (by simp [files]))⟩

/-! ### The export -/

variable {q : Request} {format : Format} {issues : List Issue} {room : Room} {troubles : Disk.Troubles}

theorem attempt_eq_ok {α : Type} {x : StoreM α} {b : α}
    (h : (attempt x).run w = (.ok (.ok b), w')) : x.run w = (.ok b, w') := by
  have hmap := run_map (Except.ok : α → Except Failure α) x w
  rcases hx : x.run w with ⟨e | b', w₁⟩
  · rw [hx] at hmap
    rw [attempt, run_tryCatch_error hmap] at h
    cases h
  · rw [hx] at hmap
    rw [attempt, run_tryCatch_ok hmap] at h
    cases h
    rfl

theorem readOnly_isReplaceable (target : Path) : ReadOnly (isReplaceable target troubles) := by
  refine .bind (Disk.readOnly_pathExists target) fun b => ?_
  cases b with
  | false => exact .pure _
  | true =>
    refine .bind (Disk.readOnly_isDir target) fun b => ?_
    cases b with
    | false => exact .pure _
    | true =>
      refine .bind (Disk.readOnly_list target) fun es => ?_
      split
      · exact .pure _
      · refine .bind (Disk.readOnly_isFile _) fun b => ?_
        cases b with
        | false => exact .pure _
        | true => exact Disk.readOnly_isFile _

theorem canonical_of_ofRecipe {t : Moment} (h : Artifacts.ofRecipe r t room = .ok a) :
    r.canonical = .ok a.recipeJson := by
  obtain ⟨is, -, h⟩ := Except.bind_eq_ok.1 h
  obtain ⟨script, -, h⟩ := Except.bind_eq_ok.1 h
  obtain ⟨text, htext, h⟩ := Except.bind_eq_ok.1 h
  cases h
  rw [Artifacts.canonical] at htext
  cases hc : r.canonical with
  | ok t => rw [hc] at htext; cases htext; rfl
  | error e => rw [hc] at htext; cases htext

theorem writeTo_eq_written {issues' : List Issue}
    (h : (writeTo s r issues target format).run w = (.ok (.written path issues'), w')) :
    issues' = issues ∧ ∃ a w₁ w₂ rec, (Compile.compile r none).run w = (.ok a, w₁) ∧
      (install s r a target format).run w₁ = (.ok path, w₂) ∧ w' = w₂.emit rec := by
  obtain ⟨res, w₁, h1, h⟩ := run_bind_eq_ok.1 h
  split at h
  · split at h
    · obtain ⟨_, _, -, h⟩ := run_bind_eq_ok.1 h
      cases h
    · cases h
  · cases h
  · rename_i a
    obtain ⟨res', w₂, h2, h⟩ := run_bind_eq_ok.1 h
    split at h
    · rename_i path'
      obtain ⟨_, w₃, h3, h⟩ := run_bind_eq_ok.1 h
      cases h
      cases h3
      exact ⟨rfl, a, w₁, w₂, _, attempt_eq_ok h1, attempt_eq_ok h2, rfl⟩
    · split at h
      · obtain ⟨_, _, -, h⟩ := run_bind_eq_ok.1 h
        cases h
      · cases h

theorem exportRecipe_eq_written
    (h : (exportRecipe s q r format).run w = (.ok (.written path issues), w')) :
    Check.recipe r = .ok issues ∧ ∃ a w₁ w₂ rec, Logs w w₁ ∧
      Artifacts.ofRecipe r (.ofTimestamp w.now) = .ok a ∧
      (install s r a (targetOf q r w.tempDir) format).run w₁ = (.ok path, w₂) ∧
      w' = w₂.emit rec := by
  obtain ⟨is, w₁, h1, h⟩ := run_bind_eq_ok.1 h
  obtain ⟨his, hlogs⟩ := Compile.check_eq_ok h1
  split at h
  · obtain ⟨_, _, -, h⟩ := run_bind_eq_ok.1 h
    cases h
  · rw [run_bind_ok (run_get w₁), hlogs.tempDir] at h
    obtain ⟨b, w₂, h2, h⟩ := run_bind_eq_ok.1 h
    obtain rfl := (WorkM.readOnly_onDisk (readOnly_isReplaceable _)).run_eq h2
    cases b with
    | false =>
      obtain ⟨_, _, -, h⟩ := run_bind_eq_ok.1 h
      cases h
    | true =>
      obtain ⟨rfl, a, w₃, w₄, rec, hcompile, hinstall, rfl⟩ := writeTo_eq_written h
      obtain ⟨ha, hlogs'⟩ := Compile.compile_eq_ok hcompile
      rw [hlogs.now] at ha
      exact ⟨his, a, w₃, w₄, rec, hlogs.trans hlogs', ha, hinstall, rfl⟩

/-- How the export of a project goes on from its request: the format may be unknown, the recipe may not be there to be
read, and else the recipe is exported. Nothing is changed on the way to any of these. -/
inductive Concludes (s : Store) (q : Request) (room : Room) (troubles : Disk.Troubles) (w : Workspace) :
    Except Failure Outcome → Workspace → Prop
  | unsupported (hformat : Format.ofName? q.format = none) :
    Concludes s q room troubles w (.ok (.failed (unsupported q.format) [])) w
  | notLoaded {f : Failure} (hload : (s.loadRecipe q.project room troubles).run w = (.error f, w)) :
    Concludes s q room troubles w (.error f) w
  | loaded {r : Recipe} {format : Format} {res : Except Failure Outcome} {w' : Workspace}
    (hformat : Format.ofName? q.format = some format)
    (hload : (s.loadRecipe q.project room troubles).run w = (.ok r, w)) (hexport : (exportRecipe s q r format room troubles).run w = (res, w')) : Concludes s q room troubles w res w'

theorem exportProject_concludes {res : Except Failure Outcome}
    (h : (exportProject s q room troubles).run w = (res, w')) :
    Concludes s q room troubles w res w' := by
  rw [exportProject] at h
  cases hformat : Format.ofName? q.format with
  | none =>
    rw [hformat] at h
    cases h
    exact .unsupported hformat
  | some format =>
    rw [hformat] at h
    rcases hload : (s.loadRecipe q.project room troubles).run w with ⟨f | r, w₀⟩ <;>
      obtain rfl := (Store.readOnly_loadRecipe s q.project).run_eq hload
    · cases (run_bind_error hload).symm.trans h
      exact .notLoaded hload
    · exact .loaded hformat hload ((run_bind_ok hload).symm.trans h)

theorem exportProject_eq_written (h : (exportProject s q).run w = (.ok (.written path issues), w')) :
    ∃ r format a w₁ w₂ rec, (s.loadRecipe q.project).run w = (.ok r, w) ∧ Format.ofName? q.format = some format ∧
      Check.recipe r = .ok issues ∧ Logs w w₁ ∧ Artifacts.ofRecipe r (.ofTimestamp w.now) = .ok a ∧
      (install s r a (targetOf q r w.tempDir) format).run w₁ = (.ok path, w₂) ∧ w' = w₂.emit rec := by
  cases exportProject_concludes h with
  | loaded hformat hload hexport =>
    obtain ⟨hcheck, a, w₁, w₂, rec, hrest⟩ := exportRecipe_eq_written hexport
    exact ⟨_, _, a, w₁, w₂, rec, hload, hformat, hcheck, hrest⟩

end Bundle

end Provision
