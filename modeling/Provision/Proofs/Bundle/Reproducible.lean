import Provision.Proofs.Bundle.Writing
import Provision.Proofs.Bundle.Written
import Provision.Proofs.Recipe.Order

/-!
# Bundles can be reproduced

`bundle_reproducible`: the recipe in a bundle is read back as the exported one, has the same findings, and
compiles at the same time to the very files of the bundle. Only a log that goes to one of these files
is in the way: `bundle_not_reproduced`.
-/

namespace Provision.Bundle

open Disk (LeadsTo HasFile)

variable {r : Recipe} {w : Workspace} {place : List String} {text : String} {c : ByteArray}

/-- The recipe in the directory is the recipe up to the order of settings, has the findings, and compiles
at the time to the files of the directory. -/
def Reproduces (r : Recipe) (issues : List Issue) (time : Timestamp) (target : Path) (w : Workspace) :
    Prop :=
  ∃ r' a, (Store.readRecipe (target.child Save.recipeFile)).run w = (.ok r', w) ∧
    r.Alike r' ∧ Check.recipe r' = .ok issues ∧ Artifacts.ofRecipe r' (.ofTimestamp time) = .ok a ∧
    (Disk.read (target.child scriptFile)).run w.disk = (.ok (.bytes a.installSh.toUTF8), w.disk) ∧
    (Disk.read (target.child notesFile)).run w.disk = (.ok (.bytes a.readme.toUTF8), w.disk) ∧
    (Disk.read (target.child Save.recipeFile)).run w.disk = (.ok (.bytes a.recipeJson.toUTF8), w.disk)

/-- A bundle holds its recipe, and what the recipe compiles to at the time of the export. The log must
not go to a file of the bundle. -/
theorem bundle_reproducible {s : Store} {q : Request} {r : Recipe} {w w' : Workspace} {path : Path}
    {issues : List Issue} (hload : ((s.loadRecipe q.project).run w).1 = .ok r)
    (hexact : r.isExact = true)
    (hexport : (exportProject s q).run w = (.ok (.written path issues), w'))
    (hlog : ∀ place, w'.disk.LeadsTo (targetOf q r w.tempDir) place →
      ∀ name ∈ files, w.disk.held ≠ some (place ++ [name])) :
    Reproduces r issues w.now (targetOf q r w.tempDir) w' := by
  obtain ⟨r₀, format, a, w₁, w₂, rec, hl, -, hcheck, hlogs, ha, hinstall, rfl⟩ := exportProject_eq_written hexport
  obtain rfl : r₀ = r := by rw [hl] at hload; exact Except.ok.inj hload
  have hkeyed := Store.wellKeyed_of_loadRecipe hl
  obtain ⟨place, hq, hnow, hheld, hfiles⟩ := install_files hinstall
  have hlog₁ : ∀ name ∈ files, w₁.disk.held ≠ some (place ++ [name]) := fun name hname => by
    rw [hlogs.held]
    exact hlog place (leadsTo_emit hq rec) name hname
  have hlog₂ : ∀ name ∈ files, w₂.disk.held ≠ some (place ++ [name]) := fun name hname he =>
    hlog₁ name hname (hheld _ he)
  obtain ⟨hrecipe, hscript, hnotes⟩ := hfiles hlog₁
  have hrecipe := hasFile_emit hrecipe (hlog₂ _ (by simp [files])) rec
  obtain ⟨mode₁, hrecipe⟩ := hrecipe
  obtain ⟨mode₂, hscript⟩ := hasFile_emit hscript (hlog₂ _ (by simp [files])) rec
  obtain ⟨mode₃, hnotes⟩ := hasFile_emit hnotes (hlog₂ _ (by simp [files])) rec
  have hparse := Store.parse_canonical hexact hkeyed (canonical_of_ofRecipe ha) Store.blanks_nil
    ((targetOf q r₀ w.tempDir).child Save.recipeFile) (w₂.emit rec).now
  rw [String.append_empty] at hparse
  have halike := Recipe.alike_ordered r₀
  refine ⟨r₀.ordered, a, ?_, halike, (halike.check hkeyed).symm.trans hcheck,
    (halike.ofRecipe hkeyed _).symm.trans ha, Disk.run_read hscript, Disk.run_read hnotes,
    Disk.run_read hrecipe⟩
  rw [Store.run_readRecipe hrecipe, Content.toBytes, hparse]

def sampleRecipe : Recipe :=
  { Recipe.starter "p" "demo" .epoch with
    steps := [{ id := "s", name := "make", type := "mkdir", config := [("path", .str "/opt/a")] }] }

/-- A store that has one project, without files and with the text as its recipe. -/
def sampleStore (text : String) : Node :=
  .dir [("p", .dir [("assets", .dir []), ("recipe.json", .file 0o600 (.bytes text.toUTF8))])]

def sampleWorkspace (text : String) : Workspace where
  disk := { root := .dir [("store", sampleStore text)], cwd := [] }
  tempDir := ⟨.root, ["tmp"]⟩
  now := .epoch

theorem isEntry_p : Path.IsEntry "p" :=
  ⟨⟨by simp, by decide, by decide⟩, ⟨by decide, by decide⟩, by decide⟩

theorem finds_sample {d : Disk} (h : d.Finds ⟨.root, ["store"]⟩ (.found ["store"] (sampleStore text))) :
    d.Finds (Store.recipePath ⟨⟨.root, ["store"]⟩⟩ "p")
        (.found ["store", "p", "recipe.json"] (.file 0o600 (.bytes text.toUTF8))) ∧
      d.Finds (Store.assetsPath ⟨⟨.root, ["store"]⟩⟩ "p") (.found ["store", "p", "assets"] (.dir [])) := by
  have hproject := h.entry_some isEntry_p (k := 0) ⟨by decide, by decide⟩ rfl
  exact ⟨hproject.entry_some Save.isEntry_recipeFile (k := 0) ⟨by decide, by decide⟩ rfl,
    hproject.entry_some Save.isEntry_assetsDir (k := 0) ⟨by decide, by decide⟩ rfl⟩

theorem isStorable_sample : sampleRecipe.IsStorable :=
  ⟨by decide, ⟨by simp [sampleRecipe, Recipe.starter, IsKeyed],
    by simp [sampleRecipe, IsKeyed, Json.WellKeyed, Json.WellKeyedMembers]⟩, by decide, by decide⟩

theorem ordered_sample : sampleRecipe.ordered = sampleRecipe := by
  simp [Recipe.ordered, Recipe.mapSettings, sampleRecipe, sortByKey]

theorem parse_sample (h : sampleRecipe.canonical = .ok text) (path : Path) (now : Timestamp) :
    Store.parseRecipe path now text.toUTF8 = .ok sampleRecipe := by
  have hparse := Store.parse_canonical isStorable_sample.exact isStorable_sample.keyed h
    Store.blanks_nil path now
  rwa [String.append_empty, ordered_sample] at hparse

theorem loadRecipe_sample {mode : Nat} (h : sampleRecipe.canonical = .ok text)
    (hfile : w.disk.Finds (Store.recipePath ⟨⟨.root, ["store"]⟩⟩ "p")
      (.found place (.file mode (.bytes text.toUTF8)))) :
    (Store.loadRecipe ⟨⟨.root, ["store"]⟩⟩ "p").run w = (.ok sampleRecipe, w) :=
  Store.run_loadRecipe (by decide) hfile (parse_sample h _ _)

theorem check_sample : Check.recipe sampleRecipe = .ok [] := rfl

theorem ofRecipe_sample (h : sampleRecipe.canonical = .ok text) :
    ∃ a, Artifacts.ofRecipe sampleRecipe (.ofTimestamp .epoch) = .ok a := by
  have hscript : Artifacts.script sampleRecipe (.ofTimestamp .epoch) = .ok _ := rfl
  refine ⟨_, Except.bind_eq_ok.2 ⟨[], ?_, Except.bind_eq_ok.2 ⟨_, hscript,
    Except.bind_eq_ok.2 ⟨text, ?_, rfl⟩⟩⟩⟩
  · rw [Artifacts.checked, check_sample]
    rfl
  · rw [Artifacts.canonical, h]
    rfl

theorem bundle_reproducible_mkdir :
    ∃ text w', sampleRecipe.canonical = .ok text ∧
      (exportProject ⟨⟨.root, ["store"]⟩⟩ { project := "p", target := some ⟨.root, ["bundle"]⟩ }).run
        (sampleWorkspace text) = (.ok (.written ⟨.root, ["bundle"]⟩ []), w') ∧
      Reproduces sampleRecipe [] .epoch ⟨.root, ["bundle"]⟩ w' := by
  obtain ⟨text, htext⟩ := isStorable_sample.canonical
  have hstore : (sampleWorkspace text).disk.Finds ⟨.root, ["store"]⟩
      (.found ["store"] (sampleStore text)) :=
    ⟨by decide, by decide, by rfl⟩
  obtain ⟨hrecipe, hassets⟩ := finds_sample hstore
  have hload := loadRecipe_sample htext hrecipe
  obtain ⟨a, hcompile⟩ := ofRecipe_sample htext
  have hfree : (sampleWorkspace text).disk.Finds ⟨.root, ["bundle"]⟩ (.absent ["bundle"]) :=
    ⟨by decide, by decide, rfl⟩
  have hroom : (⟨.root, ["bundle"]⟩ : Path).Room 12 := ⟨by decide, by decide⟩
  obtain ⟨w', hexport⟩ := exportProject_free (s := ⟨⟨.root, ["store"]⟩⟩)
    (q := { project := "p", target := some ⟨.root, ["bundle"]⟩ }) rfl rfl hload check_sample rfl hcompile hfree
    hroom hassets (by decide)
  have hreproduces := bundle_reproducible (by rw [hload]) rfl hexport fun _ _ _ _ => nofun
  exact ⟨text, w', htext, hexport, hreproduces⟩

/-! ### A log in the way -/

/-- A log at the recipe of a bundle. -/
def strayLog : Log.Setup :=
  Log.setup "ERROR" (some ⟨.relative, ["bundle", "recipe.json"]⟩) (some "INFO") true

theorem strayLog_eq : strayLog = ⟨.info, [⟨.error, .bare, .console⟩,
    ⟨.info, .detailed true, .file ⟨.relative, ["bundle", "recipe.json"]⟩⟩], true⟩ := by rfl

theorem isQuiet_strayLog : strayLog.IsQuiet := by
  intro now rec hr
  rw [strayLog_eq, Log.Setup.lines, if_pos (by rw [hr]; decide)]

theorem lines_strayLog (now : Timestamp) (source message : String) :
    ∃ line, strayLog.lines now ⟨.info, source, message⟩ =
      [(.file ⟨.relative, ["bundle", "recipe.json"]⟩, line ++ "\n")] :=
  ⟨_, rfl⟩

theorem emit_strayLog (h : w.log = strayLog) (source message : String) :
    ∃ line, w.emit ⟨.info, source, message⟩ =
      { w with disk := w.disk.append (line ++ "\n").toUTF8 } := by
  obtain ⟨line, hline⟩ := lines_strayLog w.now source message
  rw [← h] at hline
  refine ⟨line, ?_⟩
  rw [Workspace.emit, hline]
  rfl

/-- A workspace like the sample, with a bundle in which the log is the recipe. -/
def loggedWorkspace (text : String) (c : ByteArray) : Workspace where
  disk :=
    { root := .dir [("store", sampleStore text), ("bundle", .dir [("recipe.json", .file 0o644 (.bytes c))])]
      cwd := []
      held := some ["bundle", "recipe.json"] }
  tempDir := ⟨.root, ["tmp"]⟩
  now := .epoch
  log := strayLog

theorem emit_loggedWorkspace (text : String) (c : ByteArray) (source message : String) :
    ∃ c', (loggedWorkspace text c).emit ⟨.info, source, message⟩ = loggedWorkspace text c' := by
  obtain ⟨line, hline⟩ := emit_strayLog (w := loggedWorkspace text c) rfl source message
  exact ⟨_, hline.trans rfl⟩

/-- A target that leads to the bundle by way of a missing directory. -/
def strayTarget : Path := ⟨.relative, ["x", "..", "bundle"]⟩

theorem missing_strayTarget : (loggedWorkspace text c).disk.Missing strayTarget :=
  ⟨by decide, .inl (by rw [Disk.locate, if_neg (by decide)]; rfl)⟩

/-- The disk with the missing directory. -/
def strayDisk (text : String) (c : ByteArray) : Disk :=
  (loggedWorkspace text c).disk.setAt ["x"] (some (.dir []))

theorem finds_strayTarget : (strayDisk text c).Finds strayTarget
    (.found ["bundle"] (.dir [("recipe.json", .file 0o644 (.bytes c))])) :=
  ⟨by decide, by decide, by rfl⟩

theorem makeDirs_strayTarget :
    (Disk.makeDirs strayTarget).run (loggedWorkspace text c).disk = (.ok (), strayDisk text c) := by
  have hfree : (loggedWorkspace text c).disk.Finds ⟨.relative, ["x"]⟩ (.absent ["x"]) :=
    ⟨by decide, by decide, by rfl⟩
  have hmissing : (loggedWorkspace text c).disk.locate ⟨.relative, ["x", ".."]⟩ = .error .noEntry := by
    rw [Disk.locate, if_neg (by decide)]
    rfl
  obtain ⟨es, hes⟩ : ∃ es, (strayDisk text c).Finds ⟨.relative, ["x", ".."]⟩ (.found [] (.dir es)) :=
    ⟨_, by decide, by decide, by rfl⟩
  have hmissing' : (loggedWorkspace text c).disk.locate strayTarget = .error .noEntry := by
    rw [Disk.locate, if_neg (by decide)]
    rfl
  have hup := (Disk.run_makeDirs_parent (p := ⟨.relative, ["x", ".."]⟩) (by decide) (by decide)
    hmissing (Disk.run_makeDirs_absent hfree)).trans (Disk.run_mkdirOk_found hes)
  exact (Disk.run_makeDirs_parent (p := strayTarget) (by decide) (by decide) hmissing' hup).trans
    (Disk.run_mkdirOk_found finds_strayTarget)

theorem append_line_ne (text line : String) : text.toUTF8 ++ (line ++ "\n").toUTF8 ≠ text.toUTF8 := by
  intro h
  have hsize := congrArg ByteArray.size h
  rw [ByteArray.size_append] at hsize
  have hline : (line ++ "\n").toUTF8.size = (line ++ "\n").utf8ByteSize := rfl
  have hone : "\n".utf8ByteSize = 1 := by decide
  rw [hline, String.utf8ByteSize_append, hone] at hsize
  omega

/-- What is logged of the export is added to the recipe in the bundle. -/
theorem bundle_not_reproduced :
    ∃ text w', sampleRecipe.canonical = .ok text ∧
      (Store.loadRecipe ⟨⟨.root, ["store"]⟩⟩ "p").run (loggedWorkspace text .empty) =
        (.ok sampleRecipe, loggedWorkspace text .empty) ∧ sampleRecipe.isExact = true ∧
      (exportProject ⟨⟨.root, ["store"]⟩⟩ { project := "p", target := some strayTarget }).run
        (loggedWorkspace text .empty) = (.ok (.written strayTarget []), w') ∧
      ¬ Reproduces sampleRecipe [] .epoch strayTarget w' := by
  obtain ⟨text, htext⟩ := isStorable_sample.canonical
  obtain ⟨a, hcompile⟩ := ofRecipe_sample htext
  have hstore : (loggedWorkspace text .empty).disk.Finds ⟨.root, ["store"]⟩
      (.found ["store"] (sampleStore text)) :=
    ⟨by decide, by decide, by rfl⟩
  have hload := loadRecipe_sample htext (finds_sample hstore).1
  have hfragments : Installer.fragments sampleRecipe.steps = .ok _ := rfl
  have hrecords := run_records (w := loggedWorkspace text .empty) isQuiet_strayLog check_sample
    hfragments rfl htext
  obtain ⟨c, hc⟩ := emit_loggedWorkspace text .empty Compile.compileLog
    (Compile.compiledRecord sampleRecipe []).message
  have hrun := run_compile (hrecords.trans (congrArg (Prod.mk _) hc)) hcompile
  have hstore' : (strayDisk text c).Finds ⟨.root, ["store"]⟩ (.found ["store"] (sampleStore text)) :=
    ⟨by decide, by decide, by rfl⟩
  have hfiles : ∀ name ∈ files, ∀ n, [("recipe.json", Node.file 0o644 (.bytes c))].lookup name = some n →
      ∃ mode c, n = .file mode c := by
    intro name _ n hn
    obtain ⟨rfl, rfl⟩ := List.mem_singleton.1 (mem_of_lookup hn)
    exact ⟨_, _, rfl⟩
  have hroom : strayTarget.Room 12 := ⟨by decide, by decide⟩
  obtain ⟨d, mode, hinstall, hheld, hrecipe⟩ := install_made (s := ⟨⟨.root, ["store"]⟩⟩)
    (r := sampleRecipe) (a := a) (w := loggedWorkspace text c) isQuiet_strayLog
    (run_clear_missing missing_strayTarget) makeDirs_strayTarget finds_strayTarget rfl hfiles hroom
    (finds_sample hstore').2 (by decide) (by decide)
  have hexport := run_exportProject (q := { project := "p", target := some strayTarget })
    isQuiet_strayLog rfl hload check_sample rfl (run_isReplaceable_missing missing_strayTarget) hrun
    hinstall
  refine ⟨text, _, htext, hload, rfl, hexport, ?_⟩
  rintro ⟨r', a', -, halike, -, ha', -, -, hread⟩
  -- The recipe read back would have the same canonical text, but a line has been added to it.
  have htext' := (halike.canonical isStorable_sample.keyed).symm.trans htext
  obtain rfl := Except.ok.inj ((canonical_of_ofRecipe hcompile).symm.trans htext)
  have hsame := Except.ok.inj ((canonical_of_ofRecipe ha').symm.trans htext')
  obtain ⟨line, hline⟩ := emit_strayLog (w := { loggedWorkspace a.recipeJson c with disk := d }) rfl
    logName ("Exported '" ++ sampleRecipe.project.name ++ "' to " ++ strayTarget.text)
  obtain ⟨mode', happend⟩ := Workspace.hasFile_append hheld ⟨mode, hrecipe⟩ (line ++ "\n").toUTF8
  have hcontent := Disk.run_read happend
  rw [hsame] at hread
  have hread' := (congrArg (fun w : Workspace =>
    ((Disk.read (strayTarget.child Save.recipeFile)).run w.disk).1) hline).symm.trans
      (congrArg Prod.fst hread)
  rw [hcontent] at hread'
  exact append_line_ne _ _ (Content.bytes.inj (Except.ok.inj hread'))

end Provision.Bundle
