import Provision.Proofs.Store.Changes

/-!
# A store keeps a ledger

`replies_refine`: whatever is asked of a store that begins empty, it answers as a ledger does. A
workspace is tied to a ledger (`Tied`) when making the root of the store, as far as it is missing, gives
the tree of the ledger. Each operation keeps the two tied (`Tied.perform`), and so does every sequence
of them.
-/

namespace Provision.Store

variable {s : Store} {id filename : String} {d : Disk} {place : List String} {m : Ledger} {rec : Record}
  {w w' : Workspace} {r : Recipe}

theorem map_canonical (h : r.IsStorable) : r.canonical.map (· ++ "\n") = .ok r.fileText := by
  obtain ⟨text, ht⟩ := h.canonical
  rw [Recipe.fileText, ht]
  rfl

theorem run_saveRecipe (hid : IsEntryName r.project.id) (hr : r.IsStorable)
    (hsave : (Save.mk (s.entryPath r.project.id)
      (.ok ({ r with updatedAt := w.now } : Recipe).fileText)).run .none w.disk = (.ok (), d)) :
    ∃ rec, (s.saveRecipe r).run w =
      (.ok { r with updatedAt := w.now }, ({ w with disk := d } : Workspace).emit rec) := by
  have hsaving : s.saving r w.now =
      ⟨s.entryPath r.project.id, .ok ({ r with updatedAt := w.now } : Recipe).fileText⟩ := by
    rw [saving, map_canonical (hr.dated w.now)]
  exact ⟨_, run_saveRecipe_eq (refusal_of_isName hid.accepted) (hsaving ▸ hsave)⟩

/-- Making the root of the store gives the tree of the ledger. It is there already, unless nothing was
stored yet. -/
structure Tied (s : Store) (place : List String) (m : Ledger) (w : Workspace) : Prop where
  issued : w.issued = m.issued
  sound : m.Sound
  made : ∃ d, (Disk.makeDirs s.root).run w.disk = (.ok (), d) ∧ Holds s place m.entries d ∧
    (m.records = [] ∨ w.disk = d)

/-- The tree of the ledger is there. -/
structure Built (s : Store) (place : List String) (m : Ledger) (w : Workspace) : Prop where
  issued : w.issued = m.issued
  sound : m.Sound
  holds : Holds s place m.entries w.disk

theorem Built.tied (h : Built s place m w) : Tied s place m w :=
  ⟨h.issued, h.sound, w.disk, Disk.run_makeDirs_found h.holds.root, h.holds, .inr rfl⟩

theorem issued_emit (w : Workspace) (rec : Log.Record) : (w.emit rec).issued = w.issued := by
  rw [Workspace.emit]
  generalize w.log.lines w.now rec = xs
  induction xs generalizing w with
  | nil => rfl
  | cons x xs ih =>
    rw [List.foldl_cons, ih]
    obtain ⟨_ | path, line⟩ := x <;> rfl

theorem Tied.cases (h : Tied s place m w) :
    Built s place m w ∨ (m.records = [] ∧ w.disk.Missing s.root ∧ s.root.Room roomBelow) := by
  obtain ⟨d, hmade, hd, hor⟩ := h.made
  rcases Disk.makeDirs_eq_ok hmade with ⟨l, es, hf, rfl⟩ | hmissing
  · exact .inl ⟨h.issued, h.sound, hd⟩
  · rcases hor with hm | rfl
    · exact .inr ⟨hm, hmissing, hd.room⟩
    · exact .inl ⟨h.issued, h.sound, hd⟩

theorem Built.emit (h : Built s place m w) (rec : Log.Record) : Built s place m (w.emit rec) :=
  ⟨(issued_emit w rec).trans h.issued, h.sound, h.holds.emit rec⟩

theorem Tied.makeDirs (h : Tied s place m w) (hid : IsEntryName id) :
    ∃ d, (Disk.makeDirs (s.assetsPath id)).run w.disk = (.ok (), d) ∧
      Holds s place (put id (m.record id).node m.entries) d := by
  obtain ⟨d, hmade, hd, -⟩ := h.made
  exact hd.makeDirs hmade hid

theorem run_ensureProjectDir {troubles : Disk.Troubles} (hid : isName id = true)
    (hdirs : (Disk.makeDirs (s.assetsPath id) troubles).run w.disk = (.ok (), d)) :
    (s.ensureProjectDir id troubles).run w = (.ok (s.entryPath id), { w with disk := d }) := by
  rw [ensureProjectDir, run_bind_ok (run_projectDir s hid w),
    run_bind_ok (WorkM.run_onDisk_ok hdirs)]
  rfl

theorem run_saveAsset {d' : Disk} {bytes : ByteArray} {troubles : Disk.Troubles} (hid : isName id = true)
    (hf : isName filename = true) (hdirs : (Disk.makeDirs (s.assetsPath id) troubles).run w.disk = (.ok (), d))
    (hwrite : (Disk.write ((s.assetsPath id).child filename) (.bytes bytes) 0o644 troubles).run d = (.ok (), d')) :
    (s.saveAsset id filename bytes troubles).run w = (.ok ((s.assetsPath id).child filename),
      ({ w with disk := d' } : Workspace).emit
        ⟨.info, logName, "Saved asset " ++ filename ++ " for project " ++ id⟩) := by
  rw [saveAsset, run_bind_ok (run_checkName hf w), run_bind_ok (run_ensureProjectDir hid hdirs)]
  exact run_bind_ok (WorkM.run_onDisk_ok hwrite)

theorem Tied.ensure (h : Tied s place m w) (hid : IsEntryName id) :
    ∃ w', (s.ensureProjectDir id).run w = (.ok (s.entryPath id), w') ∧
      Built s place (m.setRecord id (m.record id)) w' := by
  obtain ⟨d, hdirs, hd⟩ := h.makeDirs hid
  refine ⟨_, run_ensureProjectDir hid.accepted hdirs, h.issued, h.sound.ensure hid, ?_⟩
  rw [Ledger.entries_setRecord]
  exact hd

theorem Tied.save (h : Tied s place m w) (hid : IsEntryName r.project.id) (hr : r.IsStorable) :
    ∃ w', (s.saveRecipe r).run w = (.ok { r with updatedAt := w.now }, w') ∧
      Built s place (m.saveRecipe { r with updatedAt := w.now }) w' := by
  obtain ⟨d, hdirs, hd⟩ := h.makeDirs hid
  obtain ⟨d₂, hsave, hd₂⟩ := hd.save hid hdirs { r with updatedAt := w.now }
  obtain ⟨rec, hrun⟩ := run_saveRecipe hid hr hsave
  have hbuilt : Built s place (m.saveRecipe { r with updatedAt := w.now }) { w with disk := d₂ } := by
    refine ⟨h.issued, h.sound.saveRecipe hid (hr.dated w.now), ?_⟩
    rw [Ledger.saveRecipe, Ledger.entries_setRecord]
    exact hd₂
  exact ⟨_, hrun, hbuilt.emit rec⟩

theorem Tied.create (h : Tied s place m w) (name description : String) (targets : List String) :
    ∃ w', (s.createProject name description targets).run w =
        (.ok (m.starter w.now name description targets), w') ∧
      Built s place (m.issue.saveRecipe (m.starter w.now name description targets)) w' := by
  have hissue : Tied s place m.issue { w with issued := w.issued + 1 } :=
    ⟨congrArg (· + 1) h.issued, ⟨h.sound.keyed, h.sound.names, h.sound.files, h.sound.recipes⟩, h.made⟩
  have hname : IsEntryName (m.starter w.now name description targets).project.id :=
    isEntryName_hex (m.issued + 1)
  obtain ⟨w', hrun, hw'⟩ := hissue.save hname (isStorable_starter m w.now name description targets)
  refine ⟨w'.emit ⟨.info, logName, "Created project '" ++ name ++ "' (" ++
    (m.starter w.now name description targets).project.id ++ ")"⟩, ?_, hw'.emit _⟩
  have hid : (WorkM.freshId : StoreM String).run w =
      (.ok (String.ofList (Text.hex 32 (m.issued + 1))), { w with issued := w.issued + 1 }) := by
    rw [← h.issued]
    rfl
  rw [createProject, run_bind_ok hid, run_bind_ok (WorkM.run_now _)]
  exact run_bind_ok hrun

theorem Tied.saveAsset (h : Tied s place m w) (hid : IsEntryName id) (hf : IsEntryName filename)
    (bytes : ByteArray) :
    ∃ w', (s.saveAsset id filename bytes).run w = (.ok ((s.assetsPath id).child filename), w') ∧
      Built s place (m.saveFile id filename bytes) w' := by
  obtain ⟨d, hdirs, hd⟩ := h.makeDirs hid
  obtain ⟨d₂, hwrite, hd₂⟩ := hd.saveFile hid hf bytes
  have hbuilt : Built s place (m.saveFile id filename bytes) { w with disk := d₂ } := by
    refine ⟨h.issued, h.sound.saveFile hid hf bytes, ?_⟩
    rw [Ledger.saveFile, Ledger.entries_setRecord]
    exact hd₂
  exact ⟨_, run_saveAsset hid.accepted hf.accepted hdirs hwrite, hbuilt.emit _⟩

theorem run_readRecipe_missing {path : Path} (h : w.disk.Missing path) :
    (readRecipe path).run w = (.error (.store (.recipeNotFound path)), w) := by
  rw [readRecipe_eq, run_bind_ok (WorkM.run_onDisk_ok (Disk.run_isFile_missing h))]
  rfl

theorem parse_fileText (h : r.IsStorable) (path : Path) (now : Timestamp) :
    parseRecipe path now r.fileText.toUTF8 = .ok r.ordered := by
  obtain ⟨text, ht⟩ := h.canonical
  rw [Recipe.fileText, ht]
  exact parse_canonical h.exact h.keyed ht blanks_newline path now

theorem lookup_entries_of_lookup (hl : m.records.lookup id = some rec) :
    m.entries.lookup id = some rec.node := by
  rw [m.lookup_entries, hl]
  rfl

theorem Built.run_readRecipe (h : Built s place m w) (hid : IsEntryName id)
    (hr : (m.record id).recipe = some r) :
    (readRecipe (s.recipePath id)).run w = (.ok r.ordered, w) := by
  have hstorable := h.sound.record_recipe id hr
  cases hl : m.records.lookup id with
  | none =>
    rw [Ledger.record_of_none hl] at hr
    cases hr
  | some rec =>
    rw [Ledger.record_of_lookup hl] at hr
    have hfound := h.holds.recipe_some hid (lookup_entries_of_lookup hl) hr
    rw [Store.run_readRecipe hfound, Content.toBytes, parse_fileText hstorable]

theorem Holds.missing_recipe (h : Holds s place m.entries d) (hid : IsEntryName id)
    (hr : (m.record id).recipe = none) : d.Missing (s.recipePath id) := by
  cases hl : m.records.lookup id with
  | none =>
    have hnone : m.entries.lookup id = none := by rw [m.lookup_entries, hl]; rfl
    exact (h.entry_none hid hnone).missing.child (room_entry h.room hid) Save.isEntry_recipeFile
      (room_recipe h.room hid)
  | some rec =>
    rw [Ledger.record_of_lookup hl] at hr
    exact h.recipe_none hid (lookup_entries_of_lookup hl) hr

theorem Holds.missing_assets (h : Holds s place m.entries d) (hid : IsEntryName id)
    (hl : m.records.lookup id = none) : d.Missing (s.assetsPath id) := by
  have hnone : m.entries.lookup id = none := by rw [m.lookup_entries, hl]; rfl
  exact (h.entry_none hid hnone).missing.child (room_entry h.room hid) Save.isEntry_assetsDir
    (room_assets h.room hid)

theorem Tied.missing_recipe (h : Tied s place m w) (hid : IsEntryName id)
    (hr : (m.record id).recipe = none) : w.disk.Missing (s.recipePath id) := by
  rcases h.cases with hb | ⟨-, hmissing, hroom⟩
  · exact hb.holds.missing_recipe hid hr
  · exact (hmissing.child hroom hid.isEntry (room_entry hroom hid)).child (room_entry hroom hid)
      Save.isEntry_recipeFile (room_recipe hroom hid)

theorem Tied.load_some (h : Tied s place m w) (hid : IsEntryName id)
    (hr : (m.record id).recipe = some r) : (s.loadRecipe id).run w = (.ok r.ordered, w) := by
  rw [loadRecipe, run_bind_ok (run_checkName hid.accepted w)]
  rcases h.cases with hb | ⟨hm, -, -⟩
  · exact hb.run_readRecipe hid hr
  · rw [Ledger.record, hm] at hr
    cases hr

theorem Tied.load_none (h : Tied s place m w) (hid : IsEntryName id)
    (hr : (m.record id).recipe = none) :
    (s.loadRecipe id).run w = (.error (.store (.recipeNotFound (s.recipePath id))), w) := by
  rw [loadRecipe, run_bind_ok (run_checkName hid.accepted w)]
  exact run_readRecipe_missing (h.missing_recipe hid hr)

theorem Tied.listAssets_some (h : Tied s place m w) (hid : IsEntryName id)
    (hl : m.records.lookup id = some rec) :
    (s.listAssets id).run w =
      (.ok ((sortByKey rec.files).map fun (name, b) => ⟨name, b.size⟩), w) := by
  rcases h.cases with hb | ⟨hm, -, -⟩
  · have hfound := hb.holds.assets hid (lookup_entries_of_lookup hl)
    have hes := hb.holds.probes_files hid (lookup_entries_of_lookup hl) (hb.sound.files id rec (mem_of_lookup hl))
    rw [run_listAssets_found hid.accepted hfound hes,
      sortByKey_map fun bytes : ByteArray => Node.file 0o644 (.bytes bytes), fileEntries, List.filter_eq_self.2 fun e he => ?_, List.map_map]
    · rfl
    · obtain ⟨f, -, rfl⟩ := List.mem_map.1 he
      rfl
  · rw [hm] at hl
    cases hl

theorem Tied.listAssets_none (h : Tied s place m w) (hid : IsEntryName id)
    (hl : m.records.lookup id = none) :
    (s.listAssets id).run w = (.error (.store (.assetsNotFound id)), w) := by
  have hmissing : w.disk.Missing (s.assetsPath id) := by
    rcases h.cases with hb | ⟨-, hmissing, hroom⟩
    · exact hb.holds.missing_assets hid hl
    · exact (hmissing.child hroom hid.isEntry (room_entry hroom hid)).child (room_entry hroom hid)
        Save.isEntry_assetsDir (room_assets hroom hid)
  exact run_listAssets_none hid.accepted (Disk.run_isDir_missing hmissing)

theorem run_projectIn_found {path : Path} {l : List String} {es : List (String × Node)}
    (hdir : w.disk.Finds path (.found l (.dir es)))
    (hread : (readRecipe (path.child Save.recipeFile)).run w = (.ok r, w)) :
    (projectIn path).run w = (.ok (some r.project), w) := by
  rw [projectIn, run_bind_ok (WorkM.run_onDisk_ok (Disk.run_isDir_found hdir))]
  exact run_tryCatch_ok (run_map_ok some (run_map_ok Recipe.project hread))

theorem run_projectIn_missing {path : Path} {l : List String} {es : List (String × Node)}
    (hdir : w.disk.Finds path (.found l (.dir es))) (hmissing : w.disk.Missing (path.child Save.recipeFile)) :
    ∃ rec, (projectIn path).run w = (.ok none, w.emit rec) := by
  rw [projectIn, run_bind_ok (WorkM.run_onDisk_ok (Disk.run_isDir_found hdir))]
  have hread := run_map_error Recipe.project (run_readRecipe_missing hmissing)
  exact ⟨_, run_tryCatch_error (run_map_error some hread)⟩

theorem run_projectsIn_each {P : Workspace → Prop} {recs : List (String × Record)}
    (hone : ∀ x ∈ recs, ∀ w, P w → ∃ w', (projectIn (s.entryPath x.1)).run w =
      (.ok (x.2.recipe.map Recipe.project), w') ∧ P w') (h : P w) :
    ∃ w', (projectsIn (recs.map fun (id, _) => s.entryPath id)).run w =
      (.ok (recs.filterMap fun (_, rec) => rec.recipe.map Recipe.project), w') ∧ P w' := by
  induction recs generalizing w with
  | nil => exact ⟨w, rfl, h⟩
  | cons x recs ih =>
    obtain ⟨id, rec⟩ := x
    obtain ⟨w₁, hrun₁, h₁⟩ := hone _ List.mem_cons_self w h
    obtain ⟨w₂, hrun₂, h₂⟩ := ih (fun y hy => hone y (List.mem_cons_of_mem _ hy)) h₁
    refine ⟨w₂, ?_, h₂⟩
    rw [List.map_cons, projectsIn, run_bind_ok hrun₁, run_bind_ok hrun₂]
    simp only [List.filterMap_cons]
    cases rec.recipe <;> rfl

theorem Built.projectIn (h : Built s place m w) (hmem : (id, rec) ∈ m.records) :
    ∃ w', (projectIn (s.entryPath id)).run w = (.ok (rec.recipe.map Recipe.project), w') ∧
      Built s place m w' := by
  have hid := h.sound.names id rec hmem
  have hl := lookup_of_mem h.sound.keyed hmem
  have hfound := h.holds.entry_some hid (lookup_entries_of_lookup hl)
  cases hr : rec.recipe with
  | some r =>
    have hread := h.run_readRecipe hid ((congrArg Record.recipe (Ledger.record_of_lookup hl)).trans hr)
    exact ⟨w, run_projectIn_found (r := r.ordered) hfound hread, h⟩
  | none =>
    have hmissing := h.tied.missing_recipe hid
      ((congrArg Record.recipe (Ledger.record_of_lookup hl)).trans hr)
    obtain ⟨rec', hrun⟩ := run_projectIn_missing hfound hmissing
    exact ⟨_, hrun, h.emit rec'⟩

theorem Built.projectsIn (h : Built s place m w) {recs : List (String × Record)}
    (hmem : ∀ x ∈ recs, x ∈ m.records) :
    ∃ w', (projectsIn (recs.map fun (id, _) => s.entryPath id)).run w =
        (.ok (recs.filterMap fun (_, rec) => rec.recipe.map Recipe.project), w') ∧
      Built s place m w' :=
  run_projectsIn_each (fun x hx _ h => h.projectIn (hmem x hx)) h

theorem run_listProjects {es : List (String × Node)} (hdir : (Disk.isDir s.root).run w.disk = (.ok true, w.disk))
    (hlist : (Disk.list s.root).run w.disk = (.ok es, w.disk)) :
    (s.listProjects).run w = (projectsIn (es.map fun (name, _) => s.entryPath name)).run w := by
  rw [listProjects, run_bind_ok (WorkM.run_onDisk_ok hdir)]
  exact run_bind_ok (WorkM.run_onDisk_ok hlist)

theorem Tied.list (h : Tied s place m w) :
    ∃ w', (s.listProjects).run w = (.ok m.projects, w') ∧ Tied s place m w' := by
  rcases h.cases with hb | ⟨hm, hmissing, -⟩
  · have hmem : ∀ x ∈ sortByKey m.records, x ∈ m.records := fun x => mem_sortByKey.1
    obtain ⟨w', hrun, hw'⟩ := hb.projectsIn hmem
    refine ⟨w', ?_, hw'.tied⟩
    rw [run_listProjects (Disk.run_isDir_found hb.holds.root) (Disk.run_list hb.holds.root), Ledger.entries,
      sortByKey_map Record.node, List.map_map]
    exact hrun
  · refine ⟨w, ?_, h⟩
    rw [listProjects, run_bind_ok (WorkM.run_onDisk_ok (Disk.run_isDir_missing hmissing)),
      Ledger.projects, hm, sortByKey, List.mergeSort_nil]
    rfl

/-! ### Every operation -/

theorem Answer.Alike.refl (a : Answer) : a.Alike a := by
  cases a with
  | recipe r => exact Recipe.Alike.refl r
  | _ => rfl

theorem SameReply.of_eq {x y : Except Failure Answer} (h : x = y) : SameReply x y := by
  subst h
  cases x with
  | ok a => exact .refl a
  | error e => rfl

/-- An operation is answered as the ledger answers it, and leaves a workspace tied to what the ledger
becomes. -/
theorem Tied.perform (h : Tied s place m w) {op : Op} (hop : op.Fits) :
    SameReply (m.perform s w.now op).1 ((s.perform op).run w).1 ∧
      Tied s place (m.perform s w.now op).2 ((s.perform op).run w).2 := by
  cases op with
  | create name description targets =>
    obtain ⟨w', hrun, hw'⟩ := h.create name description targets
    rw [Store.perform, run_map_ok _ hrun]
    exact ⟨.of_eq rfl, hw'.tied⟩
  | save r =>
    obtain ⟨w', hrun, hw'⟩ := h.save hop.1 hop.2
    rw [Store.perform, run_map_ok _ hrun]
    exact ⟨.of_eq rfl, hw'.tied⟩
  | load id =>
    cases hr : (m.record id).recipe with
    | some r =>
      rw [Store.perform, run_map_ok _ (h.load_some hop hr), Ledger.perform]
      simp only [hr]
      exact ⟨Recipe.alike_ordered r, h⟩
    | none =>
      rw [Store.perform, run_map_error _ (h.load_none hop hr), Ledger.perform]
      simp only [hr]
      exact ⟨.of_eq rfl, h⟩
  | list =>
    obtain ⟨w', hrun, hw'⟩ := h.list
    rw [Store.perform, run_map_ok _ hrun]
    exact ⟨.of_eq rfl, hw'⟩
  | saveAsset id filename bytes =>
    obtain ⟨w', hrun, hw'⟩ := h.saveAsset hop.1 hop.2 bytes
    rw [Store.perform, run_map_ok _ hrun]
    exact ⟨.of_eq rfl, hw'.tied⟩
  | listAssets id =>
    cases hl : m.records.lookup id with
    | some rec =>
      rw [Store.perform, run_map_ok _ (h.listAssets_some hop hl), Ledger.perform]
      simp only [hl]
      exact ⟨.of_eq rfl, h⟩
    | none =>
      rw [Store.perform, run_map_error _ (h.listAssets_none hop hl), Ledger.perform]
      simp only [hl]
      exact ⟨.of_eq rfl, h⟩
  | ensure id =>
    obtain ⟨w', hrun, hw'⟩ := h.ensure hop
    rw [Store.perform, run_map_ok _ hrun]
    exact ⟨.of_eq rfl, hw'.tied⟩

theorem Tied.replies (h : Tied s place m w) {ops : List (Timestamp × Op)}
    (hops : ∀ x ∈ ops, x.2.Fits) :
    List.Forall₂ SameReply (m.replies s ops) (s.replies ops w) := by
  induction ops generalizing m w with
  | nil => exact .nil
  | cons x ops ih =>
    obtain ⟨now, op⟩ := x
    have hnow : Tied s place m { w with now } := ⟨h.issued, h.sound, h.made⟩
    obtain ⟨hreply, hnext⟩ := hnow.perform (hops (now, op) List.mem_cons_self)
    exact .cons hreply (ih hnext fun y hy => hops y (List.mem_cons_of_mem _ hy))

/-- Where making the root gives an empty directory, the ledger begins empty. The file held open was there
before, so it is none below the root. -/
theorem tied_of_makeDirs (hmade : (Disk.makeDirs s.root).run w.disk = (.ok (), d))
    (hempty : d.Finds s.root (.found place (.dir []))) (hroom : s.root.Room roomBelow)
    (habsolute : (w.disk.absolute s.root).Room roomBelow) (hdisk : w.disk.WellFormed) :
    Tied s place ⟨[], w.issued⟩ w := by
  have hkeeps : ∀ l, Disk.Keeps l w.disk d := fun l => (Disk.keeps_makeDirs s.root).of_run hmade
  have hcwd : d.cwd = w.disk.cwd := (hkeeps []).cwd
  refine ⟨rfl, Ledger.sound_nil _, d, hmade, ⟨hempty, hroom, ?_, ?_, fun l hl hp => ?_⟩, .inl rfl⟩
  · rw [Disk.absolute, Disk.start, hcwd]
    exact habsolute
  · rw [hcwd]
    exact hdisk.cwd
  · obtain ⟨mode, c, hfile⟩ := hdisk.held l ((hkeeps l).held ▸ hl)
    have hfile := (hkeeps l).file mode c hfile
    obtain ⟨t, rfl⟩ := hp
    rw [Node.get_append, Disk.get_of_walk hempty.leads] at hfile
    cases t with
    | nil => cases hfile
    | cons x xs => cases hfile

/-- A store answers every sequence of operations as a ledger does, where making its root gives an empty
directory and the system takes the paths below it. -/
theorem replies_refine {s : Store} {w : Workspace} {d : Disk} {place : List String}
    {ops : List (Timestamp × Op)} (hmade : (Disk.makeDirs s.root).run w.disk = (.ok (), d))
    (hempty : d.Finds s.root (.found place (.dir []))) (hroom : s.root.Room roomBelow)
    (habsolute : (w.disk.absolute s.root).Room roomBelow) (hdisk : w.disk.WellFormed)
    (hops : ∀ x ∈ ops, x.2.Fits) :
    List.Forall₂ SameReply (Ledger.replies ⟨[], w.issued⟩ s ops) (s.replies ops w) :=
  (tied_of_makeDirs hmade hempty hroom habsolute hdisk).replies hops

/-- A workspace with the entries in its working directory, which is the root of the disk. -/
def sampleWorkspace (es : List (String × Node)) : Workspace where
  disk := { root := .dir es, cwd := [] }
  tempDir := ⟨.root, ["tmp"]⟩
  now := .epoch

/-- A project that gets a file and a recipe, and is asked for all. -/
def sampleOps : List (Timestamp × Op) :=
  [(.epoch, .load "p"), (.epoch, .saveAsset "p" "a.txt" "a".toUTF8), (.epoch, .load "p"),
    (.epoch, .save (Recipe.starter "p" "demo" .epoch)), (.epoch, .load "p"), (.epoch, .list),
    (.epoch, .listAssets "p")]

theorem fits_sampleOps : ∀ x ∈ sampleOps, x.2.Fits := by
  have hp : IsEntryName "p" := ⟨by decide, by decide, by decide, by decide⟩
  have ha : IsEntryName "a.txt" := ⟨by decide, by decide, by decide, by decide⟩
  have hr : (Recipe.starter "p" "demo" .epoch).IsStorable :=
    ⟨rfl, ⟨by simp [Recipe.starter, IsKeyed], nofun⟩, nofun, nofun⟩
  simp only [sampleOps, List.forall_mem_cons]
  exact ⟨hp, ⟨hp, ha⟩, hp, ⟨hp, hr⟩, hp, trivial, hp, List.forall_mem_nil _⟩

theorem wellFormed_sampleWorkspace (es : List (String × Node)) :
    (sampleWorkspace es).disk.WellFormed :=
  ⟨nofun, nofun⟩

theorem replies_refine_projects :
    List.Forall₂ SameReply
      (Ledger.replies {} ⟨⟨.relative, ["projects"]⟩⟩ sampleOps)
      (Store.replies ⟨⟨.relative, ["projects"]⟩⟩ sampleOps (sampleWorkspace [])) := by
  have habsent : (sampleWorkspace []).disk.Finds ⟨.relative, ["projects"]⟩ (.absent ["projects"]) :=
    ⟨by decide, by decide, rfl⟩
  exact replies_refine (Disk.run_makeDirs_absent habsent) ⟨by decide, by decide, rfl⟩
    ⟨by decide, by decide⟩ ⟨by decide, by decide⟩ (wellFormed_sampleWorkspace []) fits_sampleOps

/-- An operation on a root that does not exist is not answered as a ledger answers it. -/
def Departs (s : Store) (w : Workspace) (op : Op) : Prop :=
  ((Disk.pathExists s.root).run w.disk).1 = .ok false ∧ w.disk.WellFormed ∧ op.Fits ∧
    ¬ List.Forall₂ SameReply (Ledger.replies ⟨[], w.issued⟩ s [(.epoch, op)])
      (s.replies [(.epoch, op)] w)

theorem size_intercalate_replicate (n : Nat) :
    ("/".intercalate (List.replicate (n + 1) "a")).utf8ByteSize = 2 * n + 1 := by
  have ha : "a".utf8ByteSize = 1 := by decide
  have hslash : "/".utf8ByteSize = 1 := by decide
  induction n with
  | zero => rw [List.replicate_one, String.intercalate_singleton, ha]
  | succ n ih =>
    rw [List.replicate_succ, String.intercalate_cons_of_ne_nil (by simp), String.utf8ByteSize_append,
      String.utf8ByteSize_append, ih, ha, hslash]
    omega

/-- A path of names of one letter. -/
def deepRoot (n : Nat) : Path :=
  ⟨.relative, List.replicate (n + 1) "a"⟩

theorem size_text_deepRoot (n : Nat) : (deepRoot n).text.utf8ByteSize = 2 * n + 1 := by
  have hsize := size_intercalate_replicate n
  have hne : "/".intercalate (List.replicate (n + 1) "a") ≠ "" := by
    intro he
    rw [he, String.utf8ByteSize_empty] at hsize
    omega
  rw [Path.text, deepRoot]
  simp only [if_neg hne, hsize]

theorem missing_deepRoot {n : Nat} (h : 2 * n + 1 < Disk.pathLimit) :
    (sampleWorkspace []).disk.Missing (deepRoot n) := by
  have hlocate : (sampleWorkspace []).disk.locate (deepRoot n) =
      Disk.walk (.dir []) [] (List.replicate (n + 1) "a") := by
    rw [Disk.locate, if_neg (by rw [size_text_deepRoot]; omega)]
    rfl
  refine ⟨?_, ?_⟩
  · rw [Path.hasNul, deepRoot, List.any_replicate]
    rfl
  · rw [hlocate, List.replicate_succ]
    cases n with
    | zero => exact .inr ⟨_, rfl⟩
    | succ n => exact .inl rfl

theorem ensure_eq_error (hid : IsEntryName id) (hn : (s.assetsPath id).hasNul = false)
    (h : Disk.pathLimit ≤ (s.assetsPath id).text.utf8ByteSize) :
    ∃ f, (s.ensureProjectDir id).run w = (.error f, w) := by
  have hlocate : w.disk.locate (s.assetsPath id) = .error .nameTooLong := if_pos h
  have hdir : (Disk.isDir (s.assetsPath id)).run w.disk =
      (.error (.refused .nameTooLong (s.assetsPath id).text none), w.disk) := by
    have hprobe : (Disk.probe (s.assetsPath id)).run w.disk =
        (.error (.refused .nameTooLong (s.assetsPath id).text none), w.disk) := by
      rw [Disk.run_probe_eq hn, hlocate]
    rw [Disk.isDir, run_bind_error hprobe]
  have hmake := Disk.run_makeDirs_refused (by decide) (Disk.run_mkdir_error hn hlocate)
  rw [run_bind_error hdir] at hmake
  refine ⟨.disk (.refused .nameTooLong (s.assetsPath id).text none), ?_⟩
  rw [ensureProjectDir, projectDir, bind_assoc, run_bind_ok (run_checkName hid.accepted w), pure_bind,
    run_bind_error (WorkM.run_onDisk_error hmake)]

theorem ensure_deepRoot {n : Nat} (h : Disk.pathLimit ≤ 2 * n + 10) :
    ∃ f, ((⟨deepRoot n⟩ : Store).ensureProjectDir "p").run w = (.error f, w) := by
  have hp : IsEntryName "p" := ⟨by decide, by decide, by decide, by decide⟩
  have hpath : (⟨deepRoot n⟩ : Store).assetsPath "p" =
      ⟨.relative, List.replicate (n + 1) "a" ++ ["p", "assets"]⟩ := by
    rw [assetsPath, entryPath, Path.child_of_single _ Save.isEntry_assetsDir.single,
      Path.child_of_single _ hp.isEntry.single, deepRoot, List.append_assoc]
    rfl
  have hsize : ("/".intercalate (List.replicate (n + 1) "a" ++ ["p", "assets"])).utf8ByteSize =
      2 * n + 10 := by
    have hend : ("/" : String).utf8ByteSize = 1 ∧ ("/".intercalate ["p", "assets"]).utf8ByteSize = 8 := by
      decide
    rw [String.intercalate_append_of_ne_nil (by simp) (List.cons_ne_nil _ _),
      String.utf8ByteSize_append, String.utf8ByteSize_append, size_intercalate_replicate, hend.1,
      hend.2]
  have hne : "/".intercalate (List.replicate (n + 1) "a" ++ ["p", "assets"]) ≠ "" := by
    intro he
    rw [he, String.utf8ByteSize_empty] at hsize
    omega
  refine ensure_eq_error hp ?_ ?_
  · rw [hpath, Path.hasNul, List.any_append, List.any_replicate]
    rfl
  · rw [hpath, Path.text]
    simp only [if_neg hne, hsize]
    exact h

theorem departs_deepRoot {n : Nat} (hshort : 2 * n + 1 < Disk.pathLimit)
    (hlong : Disk.pathLimit ≤ 2 * n + 10) :
    Departs ⟨deepRoot n⟩ (sampleWorkspace []) (.ensure "p") := by
  refine ⟨?_, wellFormed_sampleWorkspace _, ⟨by decide, by decide, by decide, by decide⟩, fun h => ?_⟩
  · rw [Disk.pathExists, run_bind_ok (Disk.run_probe_missing (missing_deepRoot hshort))]
    rfl
  · obtain ⟨f, hrun⟩ := ensure_deepRoot hlong (w := sampleWorkspace [])
    have hreply := (List.forall₂_cons.1 h).1
    change SameReply _ ((Store.perform ⟨deepRoot n⟩ (.ensure "p")).run (sampleWorkspace [])).1 at hreply
    rw [Store.perform, run_map_error _ hrun] at hreply
    cases hreply

/-- Below a file no directory is made, and none where the paths are too long for the system. -/
theorem replies_differ :
    Departs ⟨⟨.relative, ["projects", "x"]⟩⟩
        (sampleWorkspace [("projects", .file 0o644 (.bytes .empty))]) (.ensure "p") ∧
      Departs ⟨deepRoot 2043⟩ (sampleWorkspace []) (.ensure "p") := by
  refine ⟨⟨rfl, wellFormed_sampleWorkspace _, ⟨by decide, by decide, by decide, by decide⟩, fun h => ?_⟩,
    departs_deepRoot (by decide) (by decide)⟩
  have hstore : Store.replies ⟨⟨.relative, ["projects", "x"]⟩⟩ [(.epoch, .ensure "p")]
      (sampleWorkspace [("projects", .file 0o644 (.bytes .empty))]) =
        [.error (.disk (.refused .notDirectory "projects/x/p/assets" none))] := rfl
  rw [hstore] at h
  cases (List.forall₂_cons.1 h).1

end Provision.Store
