import Provision.Proofs.Bundle.Files
import Provision.Proofs.Disk.Showing
import Provision.Proofs.Store.Reading

/-!
# Writing a bundle

`install_copied`: a bundle is written into a directory that can be made at its target, over files of the same
names, with the files of the project. `exportProject_copied`: an export to a free name is written, where the
recipe compiles without errors. `install_made` and `exportProject_free` are these for projects without files.
-/

namespace Provision

/-- The log takes no records for debugging. -/
def Log.Setup.IsQuiet (setup : Log.Setup) : Prop :=
  ∀ now rec, rec.severity = .debug → setup.lines now rec = []

theorem Workspace.emit_of_quiet {w : Workspace} (h : w.log.IsQuiet) {rec : Log.Record}
    (hr : rec.severity = .debug) : w.emit rec = w := by
  rw [emit, h w.now rec hr]
  rfl

theorem Log.Setup.lines_none (now : Timestamp) (rec : Log.Record) : Log.Setup.none.lines now rec = [] := by
  rw [lines]
  split <;> rfl

theorem Workspace.emitAll_of_none {w : Workspace} (h : w.log = .none) (recs : List Log.Record) :
    recs.foldl (fun w r => w.emit r) w = w := by
  induction recs with
  | nil => rfl
  | cons rec recs ih =>
    rw [List.foldl_cons, emit, h, Log.Setup.lines_none]
    exact ih

namespace Bundle

variable {s : Store} {r : Recipe} {a : Artifacts} {target : Path} {w : Workspace} {text : String}
  {d d₁ d₂ d₃ d₄ : Disk} {l source : List String} {room : Room} {troubles : Disk.Troubles}

theorem run_writeBundle (hlog : w.log.IsQuiet)
    (hdirs : (Disk.makeDirs (target.child Save.assetsDir)).run w.disk = (.ok (), d₁))
    (hwrite : (Disk.writeText (target.child Save.recipeFile) text).run d₁ = (.ok (), d₂))
    (hcopy : (Store.copyFiles (s.assetsPath r.project.id) (target.child Save.assetsDir)).run d₂ =
      (.ok (), d₃)) :
    (s.writeBundle r target (some text)).run w = (.ok (), { w with disk := d₃ }) := by
  rw [Store.writeBundle, run_bind_ok (WorkM.run_onDisk_ok hdirs)]
  change (WorkM.onDisk _ (Disk.writeText (target.child Save.recipeFile) text) >>= _ :
    StoreM Unit).run _ = _
  rw [run_bind_ok (WorkM.run_onDisk_ok hwrite), run_bind_ok (WorkM.run_onDisk_ok hcopy)]
  exact congrArg (Prod.mk _) (Workspace.emit_of_quiet (w := { w with disk := d₃ }) hlog rfl)

theorem run_install (hlog : w.log.IsQuiet) (hclear : (clear target).run w.disk = (.ok (), w.disk))
    (hdirs : (Disk.makeDirs (target.child Save.assetsDir)).run w.disk = (.ok (), d₁))
    (hwrite : (Disk.writeText (target.child Save.recipeFile) a.recipeJson).run d₁ = (.ok (), d₂))
    (hcopy : (Store.copyFiles (s.assetsPath r.project.id) (target.child Save.assetsDir)).run d₂ =
      (.ok (), d₃))
    (hscripts : (writeScripts target a).run d₃ = (.ok (), d₄)) :
    (install s r a target .dir).run w = (.ok target, { w with disk := d₄ }) := by
  rw [install, run_bind_ok (WorkM.run_onDisk_ok hclear),
    run_bind_ok (run_writeBundle hlog hdirs hwrite hcopy), run_bind_ok (WorkM.run_onDisk_ok hscripts)]
  rfl

theorem run_clear_missing (h : d.Missing target) : (clear target).run d = (.ok (), d) := by
  rw [clear, Disk.pathExists, bind_assoc, run_bind_ok (Disk.run_probe_missing h)]
  rfl

theorem run_clear_found {n : Node} (hf : d.Finds target (.found l n)) :
    (clear target).run d = (Disk.removeTree target).run d := by
  rw [clear, Disk.pathExists, bind_assoc, run_bind_ok (Disk.run_probe_found hf)]
  rfl

theorem run_isReplaceable_missing (h : d.Missing target) :
    (isReplaceable target).run d = (.ok true, d) := by
  rw [isReplaceable, Disk.pathExists, bind_assoc, run_bind_ok (Disk.run_probe_missing h)]
  rfl

section

variable {p q target : Path} {l source : List String} {es as src xs : List (String × Node)} {sub name : String}
  {mode : Nat} {c : Content}

/-- The files in a directory can be read by their paths, and written by those below the target. -/
structure Copyable (src : List (String × Node)) (source target : Path) : Prop where
  keyed : IsKeyed src
  files : ∀ x ∈ src, x.2.isFile = true →
    Path.IsEntry x.1 ∧ (source.child x.1).Room 0 ∧ (target.child x.1).Room 0

theorem copyable_nil (p q : Path) : Copyable [] p q := ⟨isKeyed_nil, nofun⟩

theorem run_copyFile (hs : d.Finds p (.found source (.file mode c))) (ht : d.Finds q (.absent l)) :
    (Disk.copyFile p q).run d = (.ok (), d.setAt l (some (.file mode c))) := by
  rw [Disk.copyFile, run_bind_ok (Disk.run_isDir_absent ht)]
  change (Disk.find p >>= fun spot => Disk.find q >>= fun spot' => _ : DiskM Unit).run d = _
  rw [run_bind_ok (Disk.run_find hs), run_bind_ok (Disk.run_find ht)]
  rfl

theorem run_copyAll (hsub : Path.IsEntry sub) (hroom : (p.child sub).Room 0) (hapart : Apart l source)
    (h : d.Finds p (.found l (.dir es))) (has : es.lookup sub = some (.dir as))
    (hq : d.Finds q (.found source (.dir src))) (hkeyed : IsKeyed (as ++ xs))
    (hxs : ∀ x ∈ xs, x.2.isFile = true ∧ src.lookup x.1 = some x.2 ∧
      Path.IsEntry x.1 ∧ (q.child x.1).Room 0 ∧ ((p.child sub).child x.1).Room 0) :
    ∃ d', (Store.copyAll (p.child sub) (xs.map fun (name, _) => q.child name)).run d = (.ok (), d') ∧
      d'.held = d.held ∧ d'.Finds p (.found l (.dir (put sub (.dir (as ++ xs)) es))) := by
  induction xs generalizing d as es with
  | nil =>
    refine ⟨d, rfl, rfl, ?_⟩
    rwa [List.append_nil, put_self has]
  | cons x xs ih =>
    obtain ⟨name, n⟩ := x
    obtain ⟨hfile, hsrc, hn, hfrom, hto⟩ := hxs _ List.mem_cons_self
    cases n with
    | dir es => cases hfile
    | file mode c =>
      have hnew : name ∉ as.map (·.1) := not_mem_of_isKeyed_append hkeyed
      have habsent := (h.entry_some hsub hroom has).entry_none hn hto (lookup_eq_none.2 hnew)
      have hcopy := run_copyFile (hq.entry_some hn hfrom hsrc) habsent
      have hno := Disk.FileSpot.noDirAt (.inl habsent)
      rw [List.append_assoc] at hcopy hno
      have hset : (Node.dir es).set (some (.file mode c)) [sub, name] =
          .dir (put sub (.dir (as ++ [(name, .file mode c)])) es) := by
        rw [Node.set_below has (List.cons_ne_nil name []), Node.set_entry, put_of_not_mem _ hnew]
      have h₁ := h.setAt_below hno (List.cons_ne_nil _ _) hset
      have hq₁ := hq.of_spares (Disk.spares_setAt (some (.file mode c)) hno (hapart.append _))
      have hsplit : as ++ (name, Node.file mode c) :: xs = as ++ [(name, .file mode c)] ++ xs := by simp
      rw [hsplit] at hkeyed ⊢
      obtain ⟨d', hrest, hheld, h'⟩ := ih h₁ (by rw [lookup_put, if_pos rfl]) hq₁ hkeyed
        fun x hx => hxs x (List.mem_cons_of_mem _ hx)
      rw [put_put] at h'
      refine ⟨d', ?_, hheld, h'⟩
      change (Disk.copyFile (q.child name) ((p.child sub).child (q.child name).name) >>= fun _ =>
        Store.copyAll (p.child sub) (xs.map fun (name, _) => q.child name)).run d = _
      rw [Path.name_child _ hn.single, run_bind_ok hcopy]
      exact hrest

theorem run_copyFiles (hsub : Path.IsEntry sub) (hroom : (p.child sub).Room 0) (hapart : Apart l source)
    (h : d.Finds p (.found l (.dir es))) (has : es.lookup sub = some (.dir []))
    (hq : d.Finds q (.found source (.dir src))) (hsrc : Copyable src q (p.child sub)) :
    ∃ d', (Store.copyFiles q (p.child sub)).run d = (.ok (), d') ∧ d'.held = d.held ∧
      d'.Finds p (.found l (.dir (put sub (.dir (Store.fileEntries (sortByKey src))) es))) := by
  have hkeyed : IsKeyed ([] ++ Store.fileEntries (sortByKey src)) :=
    (isKeyed_sortByKey.2 hsrc.keyed).sublist (List.filter_sublist.map _)
  obtain ⟨d', hcopy, hheld, h'⟩ := run_copyAll hsub hroom hapart h has hq hkeyed fun x hx => by
    obtain ⟨hmem, hfile⟩ := List.mem_filter.1 hx
    have hmem := mem_sortByKey.1 hmem
    exact ⟨hfile, lookup_of_mem hsrc.keyed hmem, hsrc.files x hmem hfile⟩
  refine ⟨d', ?_, hheld, h'⟩
  rw [Store.copyFiles, run_bind_ok (Disk.run_isDir_found hq)]
  change (Disk.list q >>= fun es => Store.copyAll _ _).run d = _
  rw [run_bind_ok (Disk.run_list hq)]
  exact hcopy

end

theorem run_writeScript {es : List (String × Node)} {name : String} {k : Nat}
    (h : d.Finds target (.found l (.dir es))) (hn : Path.IsEntry name) (hr : (target.child name).Room k)
    (hes : ∀ n, es.lookup name = some n → ∃ mode c, n = .file mode c) (text : String) (mode : Nat) :
    ∃ d₁ d₂, (Disk.writeText (target.child name) text).run d = (.ok (), d₁) ∧
      (Disk.chmod (target.child name) mode).run d₁ = (.ok (), d₂) ∧ d₂.held = d.held ∧
      d₂.Finds target (.found l (.dir (put name (.file mode (.bytes text.toUTF8)) es))) := by
  obtain ⟨-, mode₁, hwrite, h₁⟩ := h.run_writeText hn hr hes text
  have hfile := h₁.entry_some hn hr (by rw [lookup_put, if_pos rfl])
  refine ⟨_, _, hwrite, Disk.run_chmod hfile mode, rfl, ?_⟩
  rw [← put_put name (.file mode (.bytes text.toUTF8)) (.file mode₁ (.bytes text.toUTF8)) es]
  exact h₁.setAt_below (Disk.FileSpot.noDirAt (.inr ⟨_, _, hfile⟩)) (List.cons_ne_nil _ _)
    (Node.set_entry _ name _)

/-- A bundle is written into the directory that is made at its target, with the files of the project, which are
apart from the target. -/
theorem install_copied {es src : List (String × Node)} (hlog : w.log.IsQuiet)
    (hclear : (clear target).run w.disk = (.ok (), w.disk))
    (hmade : (Disk.makeDirs target).run w.disk = (.ok (), d))
    (hdir : d.Finds target (.found l (.dir es))) (hassets : es.lookup Save.assetsDir = none)
    (hfiles : ∀ name ∈ files, ∀ n, es.lookup name = some n → ∃ mode c, n = .file mode c)
    (hroom : target.Room 12) (hsource : d.Finds (s.assetsPath r.project.id) (.found source (.dir src)))
    (hsrc : Copyable src (s.assetsPath r.project.id) (target.child Save.assetsDir))
    (hapart : Apart l source) :
    ∃ d' mode es', (install s r a target .dir).run w = (.ok target, { w with disk := d' }) ∧
      d'.held = d.held ∧ d'.Finds target (.found l (.dir es')) ∧
      es'.lookup Save.recipeFile = some (.file mode (.bytes a.recipeJson.toUTF8)) ∧
      es'.lookup Save.assetsDir = some (.dir (Store.fileEntries (sortByKey src))) := by
  have hput : ∀ {es : List (String × Node)} {name name' : String} {c : Node}, name' ≠ name →
      (∀ n, es.lookup name' = some n → ∃ mode c, n = .file mode c) →
      ∀ n, (put name c es).lookup name' = some n → ∃ mode c, n = .file mode c := by
    intro es name name' c hne hes n hn
    rw [lookup_put, if_neg hne] at hn
    exact hes n hn
  simp only [files, List.forall_mem_cons] at hfiles
  obtain ⟨hrecipe, hscript, hnotes, -⟩ := hfiles
  -- The directory for files is made,
  have hassetsRoom : (target.child Save.assetsDir).Room 0 :=
    (hroom.mono (by decide)).child Save.isEntry_assetsDir
  have habsent := hdir.entry_none Save.isEntry_assetsDir hassetsRoom hassets
  have hno := Disk.FileSpot.noDirAt (.inl habsent)
  have hdirs := (Disk.run_makeDirs_child hmade hroom Save.isEntry_assetsDir hassetsRoom).trans
    (Disk.run_mkdirOk_absent habsent)
  have h₁ := hdir.setAt_below hno (List.cons_ne_nil _ _) (Node.set_entry es Save.assetsDir (.dir []))
  have hsource₁ := hsource.of_spares (Disk.spares_setAt (some (.dir [])) hno (hapart.append _))
  -- the recipe is written, and the files are copied,
  have hrecipeRoom : (target.child Save.recipeFile).Room 0 :=
    (hroom.mono (by decide)).child Save.isEntry_recipeFile
  obtain ⟨hnoRecipe, mode, hwrite, h₂⟩ := h₁.run_writeText Save.isEntry_recipeFile hrecipeRoom
    (hput (by decide) hrecipe) a.recipeJson
  have hsource₂ := hsource₁.of_spares (Disk.spares_setAt (some (.file mode (.bytes a.recipeJson.toUTF8)))
    hnoRecipe (hapart.append _))
  obtain ⟨d', hcopy, hheld', h'⟩ := run_copyFiles Save.isEntry_assetsDir hassetsRoom hapart h₂
    (by rw [lookup_put, if_neg (by decide), lookup_put, if_pos rfl]) hsource₂ hsrc
  -- and then the script and the notes are.
  have hscriptRoom : (target.child scriptFile).Room 0 :=
    (hroom.mono (by decide)).child isEntry_scriptFile
  have hnotesRoom : (target.child notesFile).Room 0 :=
    (hroom.mono (by decide)).child isEntry_notesFile
  obtain ⟨d₃, d₄, hw₃, hc₃, hheld₃, h₃⟩ := run_writeScript h' isEntry_scriptFile hscriptRoom
    (hput (by decide) (hput (by decide) (hput (by decide) hscript))) a.installSh 0o755
  obtain ⟨d₅, d₆, hw₅, hc₅, hheld₅, h₅⟩ := run_writeScript h₃ isEntry_notesFile hnotesRoom
    (hput (by decide) (hput (by decide) (hput (by decide) (hput (by decide) hnotes)))) a.readme 0o644
  have hscripts : (writeScripts target a).run d' = (.ok (), d₆) := by
    rw [writeScripts, run_bind_ok hw₃, run_bind_ok hc₃, run_bind_ok hw₅]
    exact hc₅
  refine ⟨d₆, mode, _, run_install hlog hclear hdirs hwrite hcopy hscripts,
    hheld₅.trans (hheld₃.trans hheld'), h₅, ?_, ?_⟩
  · rw [lookup_put, if_neg (by decide), lookup_put, if_neg (by decide), lookup_put, if_neg (by decide),
      lookup_put, if_pos rfl]
  · rw [lookup_put, if_neg (by decide), lookup_put, if_neg (by decide), lookup_put, if_pos rfl]

theorem install_made {es : List (String × Node)} (hlog : w.log.IsQuiet)
    (hclear : (clear target).run w.disk = (.ok (), w.disk))
    (hmade : (Disk.makeDirs target).run w.disk = (.ok (), d))
    (hdir : d.Finds target (.found l (.dir es))) (hassets : es.lookup Save.assetsDir = none)
    (hfiles : ∀ name ∈ files, ∀ n, es.lookup name = some n → ∃ mode c, n = .file mode c)
    (hroom : target.Room 12) (hsource : d.Finds (s.assetsPath r.project.id) (.found source (.dir [])))
    (hbelow : ¬ l <+: source) (habove : ¬ source <+: l) :
    ∃ d' mode, (install s r a target .dir).run w = (.ok target, { w with disk := d' }) ∧
      d'.held = d.held ∧ d'.Finds (target.child Save.recipeFile)
        (.found (l ++ [Save.recipeFile]) (.file mode (.bytes a.recipeJson.toUTF8))) := by
  obtain ⟨d', mode, es', hinstall, hheld, htarget, hrecipe, -⟩ := install_copied hlog hclear hmade hdir
    hassets hfiles hroom hsource (copyable_nil _ _) ⟨hbelow, habove⟩
  exact ⟨d', mode, hinstall, hheld, htarget.entry_some Save.isEntry_recipeFile (k := 0)
    ((hroom.mono (by decide)).child Save.isEntry_recipeFile) hrecipe⟩

/-! ### The export -/

variable {q : Request} {issues : List Issue} {w₁ w₂ : Workspace}

theorem run_check (hlog : w.log.IsQuiet) (hcheck : Check.recipe r = .ok issues) :
    (Compile.check r).run w = (.ok issues, w) := by
  rw [Compile.check, hcheck]
  exact congrArg (Prod.mk _) (Workspace.emit_of_quiet hlog rfl)

/-- Where no variable is skipped, all that is logged of a compilation is that it is done. -/
theorem run_records {fs : List (Step × Fragment)} (hlog : w.log.IsQuiet)
    (hcheck : Check.recipe r = .ok issues) (hfragments : Installer.fragments r.steps = .ok fs)
    (hskipped : Installer.skippedVars r.vars = []) (htext : r.canonical = .ok text) :
    (Compile.emitAll (Compile.records r)).run w = (.ok (), w.emit (Compile.compiledRecord r issues)) := by
  rw [Compile.emitAll, Compile.records, hcheck]
  simp only [hfragments, hskipped, htext, List.map_nil, List.nil_append]
  change ((.ok (), ((w.emit (Compile.checkedRecord r issues)).emit (Compile.scriptRecord r fs)).emit
    (Compile.compiledRecord r issues)) : Except Failure Unit × Workspace) = _
  have hchecked : w.emit (Compile.checkedRecord r issues) = w := Workspace.emit_of_quiet hlog rfl
  have hassembled : w.emit (Compile.scriptRecord r fs) = w := Workspace.emit_of_quiet hlog rfl
  rw [hchecked, hassembled]

theorem run_compile (hrecords : (Compile.emitAll (Compile.records r)).run w = (.ok (), w₁))
    (hcompile : Artifacts.ofRecipe r (.ofTimestamp w₁.now) = .ok a) :
    (Compile.compile r none).run w = (.ok a, w₁) := by
  rw [Compile.compile, run_bind_ok hrecords, run_bind_ok (WorkM.run_now w₁), Option.getD_none, hcompile]
  rfl

theorem run_attempt {α : Type} {x : StoreM α} {b : α} (h : x.run w = (.ok b, w₁)) :
    (attempt x).run w = (.ok (.ok b), w₁) :=
  run_tryCatch_ok (run_map_ok Except.ok h)

theorem run_exportProject_loaded {format : Format} (hformat : Format.ofName? q.format = some format)
    (hload : (s.loadRecipe q.project room troubles).run w = (.ok r, w)) :
    (exportProject s q room troubles).run w = (exportRecipe s q r format room troubles).run w := by
  rw [exportProject, hformat]
  exact run_bind_ok hload

theorem run_exportRecipe {format : Format} (hcheck : (Compile.check r room).run w = (.ok issues, w₁))
    (herrors : hasErrors issues = false)
    (hreplace : (isReplaceable (targetOf q r w₁.tempDir) troubles).run w₁.disk = (.ok true, w₁.disk)) :
    (exportRecipe s q r format room troubles).run w =
      (writeTo s r issues (targetOf q r w₁.tempDir) format room troubles).run w₁ := by
  rw [exportRecipe, run_bind_ok hcheck, if_neg (by simp [herrors]), run_bind_ok (run_get w₁),
    run_bind_ok (WorkM.run_onDisk_ok hreplace), if_pos rfl]

theorem run_exportProject (hlog : w.log.IsQuiet) (hformat : Format.ofName? q.format = some .dir)
    (hload : (s.loadRecipe q.project).run w = (.ok r, w)) (hcheck : Check.recipe r = .ok issues)
    (herrors : hasErrors issues = false)
    (hreplace : (isReplaceable (targetOf q r w.tempDir)).run w.disk = (.ok true, w.disk))
    (hcompile : (Compile.compile r none).run w = (.ok a, w₁))
    (hinstall : (install s r a (targetOf q r w.tempDir) .dir).run w₁ =
      (.ok (targetOf q r w.tempDir), w₂)) :
    (exportProject s q).run w = (.ok (.written (targetOf q r w.tempDir) issues),
      w₂.emit ⟨.info, logName,
        "Exported '" ++ r.project.name ++ "' to " ++ (targetOf q r w.tempDir).text⟩) := by
  rw [run_exportProject_loaded hformat hload, run_exportRecipe (run_check hlog hcheck) herrors hreplace, writeTo,
    run_bind_ok (run_attempt hcompile)]
  exact run_bind_ok (run_attempt hinstall)

/-- An export to a free name is written, with the files of the project whose id the recipe carries. -/
theorem exportProject_copied {src : List (String × Node)} (hlog : w.log = .none)
    (hformat : Format.ofName? q.format = some .dir)
    (hload : (s.loadRecipe q.project).run w = (.ok r, w)) (hcheck : Check.recipe r = .ok issues)
    (herrors : hasErrors issues = false)
    (hcompile : Artifacts.ofRecipe r (.ofTimestamp w.now) = .ok a)
    (hfree : w.disk.Finds (targetOf q r w.tempDir) (.absent l))
    (hroom : (targetOf q r w.tempDir).Room 12)
    (hsource : w.disk.Finds (s.assetsPath r.project.id) (.found source (.dir src)))
    (hsrc : Copyable src (s.assetsPath r.project.id) ((targetOf q r w.tempDir).child Save.assetsDir))
    (hapart : ¬ source <+: l) :
    ∃ w' es, (exportProject s q).run w = (.ok (.written (targetOf q r w.tempDir) issues), w') ∧
      w'.disk.Finds (targetOf q r w.tempDir) (.found l (.dir es)) ∧
      es.lookup Save.assetsDir = some (.dir (Store.fileEntries (sortByKey src))) := by
  have hquiet : w.log.IsQuiet := fun now rec _ => by rw [hlog, Log.Setup.lines_none]
  have hbelow : ¬ l <+: source := by
    rintro ⟨t, rfl⟩
    have hget := Disk.get_of_walk hsource.leads
    rw [Node.get_append, Disk.get_absent hfree.leads] at hget
    cases hget
  have hmade := hsource.of_spares (Disk.spares_setAt (some (.dir [])) (Disk.FileSpot.noDirAt (.inl hfree))
    ⟨hbelow, hapart⟩)
  have hrun := run_compile (congrArg (Prod.mk _) (Workspace.emitAll_of_none hlog _)) hcompile
  obtain ⟨d', mode, es, hinstall, -, htarget, -, hassets⟩ := install_copied (a := a) hquiet
    (run_clear_missing hfree.missing) (Disk.run_makeDirs_absent hfree) (hfree.setAt_absent _) rfl nofun
    hroom hmade hsrc ⟨hbelow, hapart⟩
  refine ⟨_, es, run_exportProject hquiet hformat hload hcheck herrors
    (run_isReplaceable_missing hfree.missing) hrun hinstall, ?_, hassets⟩
  have hemit : ∀ rec, Workspace.emit rec { w with disk := d' } = { w with disk := d' } := fun rec =>
    Workspace.emitAll_of_none (w := { w with disk := d' }) hlog [rec]
  rw [hemit]
  exact htarget

theorem exportProject_free (hlog : w.log = .none) (hformat : Format.ofName? q.format = some .dir)
    (hload : (s.loadRecipe q.project).run w = (.ok r, w)) (hcheck : Check.recipe r = .ok issues)
    (herrors : hasErrors issues = false)
    (hcompile : Artifacts.ofRecipe r (.ofTimestamp w.now) = .ok a)
    (hfree : w.disk.Finds (targetOf q r w.tempDir) (.absent l))
    (hroom : (targetOf q r w.tempDir).Room 12)
    (hsource : w.disk.Finds (s.assetsPath r.project.id) (.found source (.dir [])))
    (hapart : ¬ source <+: l) :
    ∃ w', (exportProject s q).run w = (.ok (.written (targetOf q r w.tempDir) issues), w') := by
  obtain ⟨w', -, hexport, -⟩ := exportProject_copied hlog hformat hload hcheck herrors hcompile hfree hroom
    hsource (copyable_nil _ _) hapart
  exact ⟨w', hexport⟩

end Bundle

end Provision
