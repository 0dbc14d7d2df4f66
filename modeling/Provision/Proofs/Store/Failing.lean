import Provision.Proofs.Bundle.Reach
import Provision.Proofs.Disk.Undoing
import Provision.Proofs.Store.Answering

/-!
# Saves that fail

Whatever a save fails of, at most the directories on the way to the files of the project have been made: the temporary
file has been taken away again (`Save.disk_of_error`). So nothing that was stored is lost, no file is left behind, and
projects are answered as they were before (`failing_save_loses_nothing`). Two things can be seen of it nevertheless:
what it logs, and a root that can be reached by way of a directory that was missing (`failing_save_leaves_traces`).
-/

namespace Provision

open Provision.Bundle (OnWay)
open Disk (OnlyMakes)

namespace Save

variable {v : Save} {d d' d₁ : Disk} {u : Unit} {f : Failure} {l : List String} {es : List (String × Node)}

theorem disk_of_error_made (hd : d₁.WellFormed) (hdirs : (Disk.makeDirs (v.dir.child assetsDir)).run d = (.ok u, d₁))
    (h : v.run .none d = (.error f, d')) : d' = d₁ := by
  have hone := advance_succ (step_start_ok hdirs) 4
  cases htext : v.text with
  | error e =>
    cases h.symm.trans (run_eq_unwritten hdirs htext)
    rfl
  | ok text =>
    rcases htemp : (Disk.createTemp v.dir).run d₁ with ⟨e | temp, d₂⟩
    · have hstop := advance_succ (step_prepared_error htext htemp) 3
      cases h.symm.trans (run_of_advance (hone.trans (hstop.trans (advance_finished _ 3))))
      exact Disk.allOrNothing_createTemp _ _ _ _ htemp
    obtain ⟨name, -, -, -, hfree, rfl⟩ := Disk.reserve_of_createTemp htemp
    have htwo := hone.trans (advance_succ (step_prepared_ok htext htemp) 3)
    -- The temporary file is there, so it can be written to.
    have hwrite := Disk.run_write_found (hfree.setAt_absent (.file 0o600 (.bytes .empty))) (.bytes text.toUTF8) 0o644
    have hthree := htwo.trans (advance_succ (step_reserved_ok htext hwrite) 2)
    rw [hfree.setAt_setAt] at hthree hwrite
    rcases hmove : (Disk.rename _ v.target).run (d₁.setAt _ (some (.file 0o600 (.bytes text.toUTF8)))) with ⟨e | u, d₄⟩
    · obtain rfl := Disk.allOrNothing_rename _ _ _ _ _ hmove
      have hfour := hthree.trans (advance_succ (step_filled_error hmove) 1)
      have hremoved : v.step (.broken _ e) .none _ = (.finished (.error (v.failed e)), d₁) :=
        step_broken_ok (hfree.run_unlink_temp hd 0o600 (.bytes text.toUTF8))
      cases h.symm.trans (run_of_advance (hfour.trans (advance_succ hremoved 0)))
      rfl
    · cases h.symm.trans (run_eq_ok hdirs htext htemp hwrite hmove)

/-- A save that fails has made directories as far as it could, and has changed nothing else. -/
theorem disk_of_error (hd : d.WellFormed) (h : v.run .none d = (.error f, d')) :
    d' = ((Disk.makeDirs (v.dir.child assetsDir)).run d).2 := by
  rcases hdirs : (Disk.makeDirs (v.dir.child assetsDir)).run d with ⟨e | u, d₁⟩
  · cases h.symm.trans (run_eq_unmade hdirs)
    rfl
  · exact disk_of_error_made (hd.of_keeps fun l => (Disk.keeps_makeDirs _).of_run hdirs) hdirs h

theorem run_ne_ok_of_dir (h : d.Finds v.target (.found l (.dir es))) : v.run .none d ≠ (.ok (), d') := by
  intro hrun
  obtain ⟨d₁, text, temp, d₂, d₃, hdirs, -, htemp, hwrite, hmove⟩ := run_ok_cases hrun
  obtain ⟨name, -, -, -, hfree, hd₂⟩ := Disk.reserve_of_createTemp htemp
  obtain ⟨place, mode, hput⟩ := Disk.putsFile_of_write hwrite
  have hkeeps : Disk.Keeps l d d₁ := (Disk.keeps_makeDirs _).of_run hdirs
  have hfiles : Node.KeepsDirs d.root d₃.root := by
    have hno := hput.spot.noDirAt
    rw [hput.eq]
    rw [hd₂] at hno ⊢
    refine (hkeeps.dirs.trans ?_).trans (Node.keepsDirs_set _ hno)
    exact Node.keepsDirs_set _ (Disk.noDirAt_of_absent hfree.leads)
  have hcwd : d₃.cwd = d.cwd := by
    rw [hput.eq, hd₂]
    exact hkeeps.cwd
  obtain ⟨es', hthere⟩ := h.dir_of_keepsDirs hcwd hfiles
  obtain ⟨-, -, -, spot, -, htarget, hno, -⟩ := Disk.rename_eq_ok hmove
  cases hthere.locate.symm.trans htarget
  exact hno es' (Disk.get_of_walk hthere.leads)

end Save

namespace Store

variable {s : Store} {r : Recipe} {w w' : Workspace} {f : Failure} {needed : List String → Prop}

theorem onlyMakes_makeDirs (p : Path) (d : Disk) (troubles : Disk.Troubles := .none) :
    OnlyMakes (OnWay d p) d ((Disk.makeDirs p troubles).run d).2 := by
  refine Disk.preserves_makeDirs (R := fun d₁ d₂ => d₁.cwd = d.cwd → OnlyMakes (OnWay d p) d₁ d₂)
    (fun d₁ _ => .refl d₁) (fun h h' hc => (h hc).trans (h' ((h hc).cwd.trans hc))) (fun q ha hq d₁ hc => ?_) d rfl
  refine Disk.footprint_mkdir fun place hf => .inr ⟨q.names, hq, ?_⟩
  have hstart : d₁.start q = d.start p := by
    rw [Disk.start_of_cwd hc, Disk.start, Disk.start, Path.isAbsolute, Path.isAbsolute, ha]
  exact (Disk.place_eq_follow hf.leads).trans (congrArg (Disk.follow · q.names) hstart)

theorem onlyMakes_emit (w : Workspace) (rec : Log.Record) : OnlyMakes needed w.disk (w.emit rec).disk := by
  refine Workspace.rel_emit (R := fun w w' => OnlyMakes needed w.disk w'.disk) (fun w => .refl w.disk) .trans
    (fun w x => ?_) w rec
  obtain ⟨_ | path, line⟩ := x
  · exact .refl w.disk
  · exact .of_append _

theorem onlyMakes_logged (v : Save) (result : Except Failure Unit) (w : Workspace) :
    OnlyMakes needed w.disk (v.logged result w).disk := by
  rw [Save.logged]
  cases v.record? result with
  | none => exact .refl w.disk
  | some rec => exact onlyMakes_emit w rec

/-- A recipe that is refused changes nothing; otherwise directories are made, and the failure may be logged. -/
theorem saveRecipe_error (hd : w.disk.WellFormed) (h : (s.saveRecipe r).run w = (.error f, w')) :
    w' = w ∨ ∃ v result w₁, w₁.disk = ((Disk.makeDirs (s.assetsPath r.project.id)).run w.disk).2 ∧ w₁.now = w.now ∧
      w' = Save.logged v result w₁ := by
  cases hrefusal : refusal? r with
  | some fault =>
    cases h.symm.trans (run_saveRecipe_refused hrefusal w)
    exact .inl rfl
  | none =>
    rcases hrun : (s.saving r w.now).run .none w.disk with ⟨e | u, d⟩
    · have hdisk := Save.disk_of_error hd hrun
      cases h.symm.trans (run_saveRecipe_eq hrefusal hrun)
      exact .inr ⟨_, _, { w with disk := d }, hdisk, rfl, rfl⟩
    · cases h.symm.trans (run_saveRecipe_eq hrefusal hrun)

theorem run_saveRecipe_unmade {e : DiskFault} {d : Disk} (hid : isName r.project.id = true)
    (h : (Disk.makeDirs (s.assetsPath r.project.id)).run w.disk = (.error e, d)) :
    (s.saveRecipe r).run w = (.error (.disk e), { w with disk := d }) :=
  run_saveRecipe_eq (refusal_of_isName hid) (Save.run_eq_unmade (v := s.saving r w.now) h)

/-- A directory in place of the recipe stays, and all that the failure leaves is what is logged. -/
theorem run_saveRecipe_dir {l l' : List String} {es es' : List (String × Node)} (hsane : w.disk.Sane)
    (hid : isName r.project.id = true) (hr : r.IsStorable)
    (hassets : w.disk.Finds (s.assetsPath r.project.id) (.found l (.dir es)))
    (htarget : w.disk.Finds (s.recipePath r.project.id) (.found l' (.dir es'))) :
    ∃ f message, (s.saveRecipe r).run w = (.error f, w.emit ⟨.error, logName, message⟩) := by
  obtain ⟨text, htext⟩ := (hr.dated w.now).canonical
  have hsaved : (s.saving r w.now).text = .ok (text ++ "\n") := by
    rw [saving, htext]
    rfl
  have hdirs := Disk.run_makeDirs_found hassets
  have hn := Disk.noNul_absolute Save.isEntry_assetsDir.single hsane.tree hdirs
  rcases hrun : (s.saving r w.now).run .none w.disk with ⟨f | u, d⟩
  · obtain rfl := Save.disk_of_error_made (v := s.saving r w.now) hsane.wellFormed hdirs hrun
    rcases Save.run_cases (v := s.saving r w.now) hdirs hsaved hn with hok | ⟨e, he, hfailed⟩
    · rw [hrun] at hok
      cases hok
    · rw [hrun] at hfailed
      cases hfailed
      have hsave := run_saveRecipe_eq (refusal_of_isName hid) hrun
      rw [Save.failed, Failure.wrapping, if_pos he] at hsave
      exact ⟨_, _, hsave⟩
  · exact absurd hrun (Save.run_ne_ok_of_dir (v := s.saving r w.now) htarget)

/-- Nothing is lost by a save that fails. All that was there stands, but that the log may have got lines at its end, and
all that is new are directories that the path to the files of the project leads through. So recipes and the list of
projects are answered as they were, where neither is the log: if the root was a directory, or its path has no names
that lead up. Only paths that are too long for the system may now be refused as such. -/
theorem failing_save_loses_nothing (hclean : s.root.Clean) (hsane : w.disk.Sane)
    (h : (s.saveRecipe r).run w = (.error f, w')) :
    OnlyMakes (OnWay w.disk (s.assetsPath r.project.id)) w.disk w'.disk ∧
      ((∃ l, w.disk.LeadsTo s.root l) ∨ ".." ∉ s.root.names →
        (∀ id, w.disk.held ≠ some (w.disk.placeOf (s.recipePath id)) → AsBefore (s.loadRecipe id) w w') ∧
        ((∀ id, w.disk.held ≠ some (w.disk.placeOf (s.recipePath id))) → AsBefore s.listProjects w w')) := by
  obtain ⟨hmakes, hnow, hsane'⟩ : OnlyMakes (OnWay w.disk (s.assetsPath r.project.id)) w.disk w'.disk ∧
      w'.now = w.now ∧ w'.disk.Sane := by
    rcases saveRecipe_error hsane.wellFormed h with rfl | ⟨v, result, w₁, hdisk, hnow, rfl⟩
    · exact ⟨.refl _, rfl, hsane⟩
    · have hlogs := v.logs_logged result w₁
      have hmade := onlyMakes_makeDirs (s.assetsPath r.project.id) w.disk
      have hsane₁ := Disk.sane_makeDirs ((hclean.child r.project.id).child Save.assetsDir) w.disk hsane
      change ((Disk.makeDirs (s.assetsPath r.project.id)).run w.disk).2.Sane at hsane₁
      rw [← hdisk] at hmade hsane₁
      exact ⟨hmade.trans (onlyMakes_logged v result w₁), hlogs.now.trans hnow, hsane₁.of_grown hlogs.disk⟩
  refine ⟨hmakes, fun hroot => ?_⟩
  have hback : Disk.GoesBack w.disk w'.disk s.root := by
    rcases hroot with ⟨l, hleads⟩ | hdots
    · exact Disk.goesBack_of_leadsTo hmakes.cwd hmakes.keepsDirs hleads
    · exact Disk.goesBack_of_no_dots hsane.wellFormed hmakes.cwd hdots
  exact ⟨fun id => asBefore_loadRecipe hmakes hnow hback, asBefore_listProjects hmakes hnow hsane hsane' hback⟩

/-! ### Traces of a failed save -/

/-- A project with a directory in place of its recipe, and the log beside the projects. -/
def blocked : Workspace where
  disk :=
    { root := .dir [
        ("projects", .dir [("a", .dir [(Save.assetsDir, .dir []), (Save.recipeFile, .dir [])])]),
        ("run.log", .file 0o644 (.bytes .empty))]
      cwd := []
      held := some ["run.log"] }
  tempDir := ⟨.root, ["tmp"]⟩
  now := .epoch
  log := Log.setup "ERROR" (some ⟨.relative, ["run.log"]⟩) (some "INFO") true

def blockedRecipe : Recipe := Recipe.starter "a" "demo" .epoch

theorem sane_blocked : blocked.disk.Sane := by
  have hentries : ∀ x ∈ ["projects", "a", "run.log", Save.assetsDir, Save.recipeFile], Path.IsEntry x := by
    simp only [List.forall_mem_cons, List.not_mem_nil, false_imp_iff, implies_true, and_true]
    refine ⟨?_, ?_, ?_, Save.isEntry_assetsDir, Save.isEntry_recipeFile⟩ <;>
      exact ⟨⟨by simp, by decide, by decide⟩, ⟨by decide, by decide⟩, by decide⟩
  have hdir := Node.isTree_dir_of_mem hentries
  have hproject := hdir [(Save.assetsDir, .dir []), (Save.recipeFile, .dir [])]
    (by simp [IsKeyed, Save.assetsDir, Save.recipeFile]) (by simp) (by simpa using Node.isTree_empty)
  have hprojects := hdir [("a", _)] (by simp [IsKeyed]) (by simp) (by simpa using hproject)
  refine ⟨⟨List.forall_mem_nil _, fun l hl => ?_⟩, hdir [("projects", _), ("run.log", _)] (by simp [IsKeyed]) (by simp)
    (by simpa using ⟨hprojects, Node.isTree_file _ _⟩)⟩
  cases hl
  exact ⟨_, _, rfl⟩

theorem lines_blocked (now : Timestamp) (source message : String) :
    ∃ shown line, blocked.log.lines now ⟨.error, source, message⟩ =
      [(.console, shown), (.file ⟨.relative, ["run.log"]⟩, line ++ "\n")] :=
  ⟨_, _, rfl⟩

theorem log_blocked (source message : String) :
    (blocked.emit ⟨.error, source, message⟩).disk.root.get? ["run.log"] ≠ some (.file 0o644 (.bytes .empty)) := by
  obtain ⟨shown, line, hlines⟩ := lines_blocked blocked.now source message
  have hdisk : (blocked.emit ⟨.error, source, message⟩).disk = blocked.disk.append (line ++ "\n").toUTF8 := by
    rw [Workspace.emit, hlines]
    rfl
  have hlog : (blocked.disk.append (line ++ "\n").toUTF8).root.get? ["run.log"] =
      some (.file 0o644 (.bytes (ByteArray.empty ++ (line ++ "\n").toUTF8))) := rfl
  intro hempty
  rw [hdisk, hlog, Option.some.injEq, Node.file.injEq, Content.bytes.injEq] at hempty
  exact Bundle.append_line_ne "" line hempty.2

theorem run_saveRecipe_blocked {r : Recipe} (hid : r.project.id = "a") (hstorable : r.IsStorable) : ∃ f message,
    (projectStore.saveRecipe r).run blocked = (.error f, blocked.emit ⟨.error, logName, message⟩) := by
  have hassets : blocked.disk.Finds ⟨.relative, ["projects", "a", "assets"]⟩
      (.found ["projects", "a", "assets"] (.dir [])) := ⟨by decide, by decide, rfl⟩
  have htarget : blocked.disk.Finds ⟨.relative, ["projects", "a", "recipe.json"]⟩
      (.found ["projects", "a", "recipe.json"] (.dir [])) := ⟨by decide, by decide, rfl⟩
  have hassetsPath : projectStore.assetsPath r.project.id = ⟨.relative, ["projects", "a", "assets"]⟩ := by
    rw [hid]
    decide
  have hrecipePath : projectStore.recipePath r.project.id = ⟨.relative, ["projects", "a", "recipe.json"]⟩ := by
    rw [hid]
    decide
  rw [← hassetsPath] at hassets
  rw [← hrecipePath] at htarget
  exact run_saveRecipe_dir sane_blocked (by rw [hid]; decide) hstorable hassets htarget

theorem isStorable_blocked : blockedRecipe.IsStorable :=
  ⟨rfl, ⟨by simp [blockedRecipe, Recipe.starter, IsKeyed], nofun⟩, nofun, nofun⟩

/-- The failure is logged, and no project is listed, as before. -/
theorem failing_save_loses_nothing_blocked :
    ∃ f w', (projectStore.saveRecipe blockedRecipe).run blocked = (.error f, w') ∧
      OnlyMakes (OnWay blocked.disk (projectStore.assetsPath "a")) blocked.disk w'.disk ∧
      AsBefore projectStore.listProjects blocked w' := by
  obtain ⟨f, message, hrun⟩ := run_saveRecipe_blocked rfl isStorable_blocked
  have hclean : projectStore.root.Clean := by
    intro x hx
    obtain rfl := List.mem_singleton.1 hx
    exact ⟨by simp, by decide, by decide⟩
  obtain ⟨hmakes, hanswers⟩ := failing_save_loses_nothing hclean sane_blocked hrun
  obtain ⟨-, hlist⟩ := hanswers (.inr (by decide))
  refine ⟨f, _, hrun, hmakes, hlist fun id hheld => ?_⟩
  -- The log is not named as a recipe is.
  have hplace := Disk.placeOf_below (d := blocked.disk)
    ((Disk.Below.refl (projectStore.entryPath id)).child Save.isEntry_recipeFile.single (by decide))
  have hlog : [] ++ ["run.log"] = _ := (Option.some.inj hheld).trans hplace
  exact absurd (List.append_inj' hlog rfl).2 (by decide)

/-- The working directory, by way of a directory that is not there. -/
def detour : Store := ⟨⟨.relative, ["x", ".."]⟩⟩

/-- A project among the files of the working directory. -/
def besideFile (bytes : ByteArray) : Workspace :=
  sampleWorkspace [("a", .file 0o644 (.bytes .empty)), ("b", .dir [(Save.recipeFile, .file 0o600 (.bytes bytes))])]

/-- The same with the directory that the way leads through. -/
def besideFileMade (bytes : ByteArray) : Workspace :=
  { besideFile bytes with disk := (besideFile bytes).disk.setAt ["x"] (some (.dir [])) }

theorem makeDirs_detour (bytes : ByteArray) : ∃ e, (Disk.makeDirs ⟨.relative, ["x", "..", "a", "assets"]⟩).run
    (besideFile bytes).disk = (.error e, (besideFileMade bytes).disk) := by
  have hfree : (besideFile bytes).disk.Finds ⟨.relative, ["x"]⟩ (.absent ["x"]) := ⟨by decide, by decide, rfl⟩
  have hmissing : ∀ names, ((⟨.relative, "x" :: ".." :: names⟩ : Path).text.utf8ByteSize < Disk.pathLimit) →
      (besideFile bytes).disk.locate ⟨.relative, "x" :: ".." :: names⟩ = .error .noEntry := by
    intro names hshort
    rw [Disk.locate, if_neg (Nat.not_le.2 hshort)]
    rfl
  obtain ⟨es, hup⟩ : ∃ es, (besideFileMade bytes).disk.Finds ⟨.relative, ["x", ".."]⟩ (.found [] (.dir es)) :=
    ⟨_, by decide, by decide, rfl⟩
  have hfile : (besideFileMade bytes).disk.Finds ⟨.relative, ["x", "..", "a"]⟩
      (.found ["a"] (.file 0o644 (.bytes .empty))) := ⟨by decide, by decide, rfl⟩
  have hroot := (Disk.run_makeDirs_parent (p := ⟨.relative, ["x", ".."]⟩) (by decide) (by decide)
    (hmissing [] (by decide)) (Disk.run_makeDirs_absent hfree)).trans (Disk.run_mkdirOk_found hup)
  have hentry := Disk.run_makeDirs_parent (p := ⟨.relative, ["x", "..", "a"]⟩) (by decide) (by decide)
    (hmissing ["a"] (by decide)) hroot
  exact ⟨_, (Disk.run_makeDirs_noEntry (by decide) (by decide) (hmissing ["a", "assets"] (by decide))).trans
    (run_bind_error (hentry.trans (Disk.run_mkdirOk_file hfile)))⟩

/-- A save that fails is logged at the end of the file that the log goes to. And if the root is named by way of a
directory that is missing, projects come to light that were not found before. -/
theorem failing_save_leaves_traces :
    (∃ f w', (projectStore.saveRecipe blockedRecipe).run blocked = (.error f, w') ∧
      blocked.disk.root.get? ["run.log"] = some (.file 0o644 (.bytes .empty)) ∧
      w'.disk.root.get? ["run.log"] ≠ some (.file 0o644 (.bytes .empty))) ∧
    ∃ f w w' fault, (detour.saveRecipe blockedRecipe).run w = (.error f, w') ∧
      ((detour.loadRecipe "b").run w).1 = .error (.store fault) ∧
      ((detour.loadRecipe "b").run w').1 = .ok sampleProject.ordered := by
  constructor
  · obtain ⟨f, message, hrun⟩ := run_saveRecipe_blocked rfl isStorable_blocked
    exact ⟨f, _, hrun, rfl, log_blocked logName message⟩
  · have hstorable : sampleProject.IsStorable :=
      ⟨rfl, ⟨by simp [sampleProject, Recipe.starter, IsKeyed], nofun⟩, nofun, nofun⟩
    have hparse := fun path now => parse_fileText hstorable path now
    generalize sampleProject.fileText.toUTF8 = bytes at hparse
    obtain ⟨e, hdirs⟩ := makeDirs_detour bytes
    have hassets : detour.assetsPath blockedRecipe.project.id = ⟨.relative, ["x", "..", "a", "assets"]⟩ := by decide
    have hrecipe : detour.recipePath "b" = ⟨.relative, ["x", "..", "b", "recipe.json"]⟩ := by decide
    rw [← hassets] at hdirs
    have hsave := run_saveRecipe_unmade (r := blockedRecipe) (by decide) hdirs
    have hfile : (besideFileMade bytes).disk.Finds ⟨.relative, ["x", "..", "b", "recipe.json"]⟩
        (.found ["b", "recipe.json"] (.file 0o600 (.bytes bytes))) := ⟨by decide, by decide, rfl⟩
    rw [← hrecipe] at hfile
    have hload : (detour.loadRecipe "b").run (besideFileMade bytes) = _ := run_loadRecipe (by decide) hfile (hparse _ _)
    exact ⟨_, besideFile bytes, besideFileMade bytes, .recipeNotFound (detour.recipePath "b"), hsave, rfl,
      congrArg Prod.fst hload⟩

end Store

end Provision
