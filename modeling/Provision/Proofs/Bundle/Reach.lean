import Provision.Proofs.Bundle.Gate
import Provision.Proofs.Disk.Footprint

/-!
# How far an export reaches

Whatever becomes of an export, all that is neither at its target nor below it, and is not the archive that is
asked for, stands as it did (`export_reach`). The phases of an export have this footprint one by one, whether
they succeed or not, as each writes to paths that go on from the target by plain names. What is shown of every
single operation of these phases holds of them as a whole (`Stepwise`).
-/

namespace Provision

open Disk (Below Footprint FileSpot)

theorem WorkM.preserves_onDisk {ε α : Type} {R : Disk → Disk → Prop} {failure : DiskFault → ε} {x : DiskM α}
    (h : Preserves R x) : Preserves (fun w w' => R w.disk w'.disk) (WorkM.onDisk failure x) := by
  intro w
  rcases hx : x.run w.disk with ⟨e | a, d⟩
  · rw [WorkM.run_onDisk_error hx]
    exact h.of_run hx
  · rw [WorkM.run_onDisk_ok hx]
    exact h.of_run hx

theorem Disk.FileSpot.eq_placeOf {d : Disk} {p : Path} {place : List String} (h : d.FileSpot p place) :
    place = d.placeOf p := by
  obtain ⟨spot, hf, rfl⟩ := h.finds
  exact Disk.place_eq_follow hf.leads

namespace Bundle

variable {s : Store} {q : Request} {r : Recipe} {a : Artifacts} {target p : Path} {format : Format} {d d' d₀ : Disk}
  {w w' : Workspace} {place more : List String} {res : Except Failure Outcome} {room : Room}
  {troubles : Disk.Troubles}

/-- The places that an export may write to. -/
def Touches (d : Disk) (target : Path) (format : Format) (l : List String) : Prop :=
  d.placeOf target <+: l ∨ format = .tarGz ∧ l = d.placeOf (archivePath target)

/-- The path to the target leads through the place, so a directory is needed there. -/
def OnWay (d : Disk) (target : Path) (l : List String) : Prop :=
  ∃ ns, ns <+: target.names ∧ l = Disk.follow (d.start target) ns

/-- The footprint of an export in the working directory of `d₀`. -/
def Reaches (d₀ : Disk) (target : Path) (format : Format) (d d' : Disk) : Prop :=
  d.cwd = d₀.cwd → Footprint (Touches d₀ target format) (OnWay d₀ target) d d'

namespace Reaches

theorem refl (d₀ : Disk) (target : Path) (format : Format) (d : Disk) : Reaches d₀ target format d d :=
  fun _ => .refl d

theorem trans {d'' : Disk} (h : Reaches d₀ target format d d') (h' : Reaches d₀ target format d' d'') :
    Reaches d₀ target format d d'' :=
  fun hc => (h hc).trans (h' ((h hc).cwd.trans hc))

end Reaches

/-- The texts of a bundle by the names of their files. -/
def texts (a : Artifacts) : List (String × String) :=
  [(Save.recipeFile, a.recipeJson), (scriptFile, a.installSh), (notesFile, a.readme)]

/-- The relation holds of every single operation that fills the target, and of a line of the log. -/
structure Stepwise (s : Store) (r : Recipe) (a : Artifacts) (target : Path) (troubles : Disk.Troubles)
    (R : Disk → Disk → Prop) : Prop where
  refl : ∀ d, R d d
  trans : ∀ {d d' d''}, R d d' → R d' d'' → R d d''
  mkdir : ∀ p : Path, p.anchor = target.anchor → p.names <+: target.names ++ [Save.assetsDir] →
    Preserves R (Disk.mkdir p troubles)
  write : ∀ x text, (x, text) ∈ texts a → Preserves R (Disk.writeText (target.child x) text troubles)
  chmod : ∀ x text, (x, text) ∈ texts a → ∀ mode, Preserves R (Disk.chmod (target.child x) mode troubles)
  copyFile : ∀ x p, p = (s.assetsPath r.project.id).child x → p.name = "" ∨ Path.IsSingle p.name →
    Preserves R (Disk.copyFile p ((target.child Save.assetsDir).child p.name) troubles)
  append : ∀ d line, R d (d.append line)

theorem below_of_mem_texts {x text : String} (h : (x, text) ∈ texts a) : Below target [x] (target.child x) := by
  simp only [texts, List.mem_cons, List.not_mem_nil, or_false, Prod.mk.injEq] at h
  obtain ⟨rfl, -⟩ | ⟨rfl, -⟩ | ⟨rfl, -⟩ := h
  · exact (Below.refl target).child Save.isEntry_recipeFile.single (by decide)
  · exact (Below.refl target).child isEntry_scriptFile.single (by decide)
  · exact (Below.refl target).child isEntry_notesFile.single (by decide)

namespace Stepwise

variable {R : Disk → Disk → Prop}

theorem makeDirs (h : Stepwise s r a target troubles R) :
    Preserves R (Disk.makeDirs (target.child Save.assetsDir) troubles) := by
  have hchild := Path.child_of_single target Save.isEntry_assetsDir.single
  refine Disk.preserves_makeDirs h.refl h.trans fun p hanchor hp => ?_
  rw [hchild] at hanchor hp
  exact h.mkdir p hanchor hp

theorem copyAll (h : Stepwise s r a target troubles R) {ps : List Path}
    (hps : ∀ p ∈ ps, ∃ x, p = (s.assetsPath r.project.id).child x) :
    Preserves R (Store.copyAll (target.child Save.assetsDir) ps troubles) := by
  have hname : Path.IsSingle (s.assetsPath r.project.id).name := by
    rw [Store.assetsPath, Path.name_child _ Save.isEntry_assetsDir.single]
    exact Save.isEntry_assetsDir.single
  induction ps with
  | nil => exact .pure h.refl _
  | cons p ps ih =>
    obtain ⟨x, rfl⟩ := hps p List.mem_cons_self
    exact .bind h.trans (h.copyFile x _ rfl (Path.single_name_child (.inr hname) x)) fun _ =>
      ih fun p' hp' => hps p' (List.mem_cons_of_mem _ hp')

theorem copyFiles (h : Stepwise s r a target troubles R) :
    Preserves R (Store.copyFiles (s.assetsPath r.project.id) (target.child Save.assetsDir) troubles) := by
  refine .bind h.trans ((Disk.readOnly_isDir _).preserves h.refl) fun b => ?_
  cases b with
  | false => exact .pure h.refl _
  | true =>
    refine .bind h.trans ((Disk.readOnly_list _).preserves h.refl) fun es => h.copyAll fun p hp => ?_
    obtain ⟨e, -, rfl⟩ := List.mem_map.1 hp
    exact ⟨e.1, rfl⟩

theorem writeScripts (h : Stepwise s r a target troubles R) : Preserves R (writeScripts target a troubles) := by
  have hscript : (scriptFile, a.installSh) ∈ texts a := by simp [texts]
  have hnotes : (notesFile, a.readme) ∈ texts a := by simp [texts]
  exact .bind h.trans (h.write _ _ hscript) fun _ => .bind h.trans (h.chmod _ _ hscript _) fun _ =>
    .bind h.trans (h.write _ _ hnotes) fun _ => h.chmod _ _ hnotes _

theorem emit (h : Stepwise s r a target troubles R) (w : Workspace) (rec : Log.Record) :
    R w.disk (w.emit rec).disk := by
  refine Workspace.rel_emit (R := fun w w' => R w.disk w'.disk) (fun w => h.refl w.disk) h.trans (fun w x => ?_) w rec
  obtain ⟨_ | path, line⟩ := x
  · exact h.refl w.disk
  · exact h.append _ _

theorem writeBundle (h : Stepwise s r a target troubles R) :
    Preserves (fun w w' => R w.disk w'.disk) (s.writeBundle r target (some a.recipeJson) troubles) := by
  have hrecipe : (Save.recipeFile, a.recipeJson) ∈ texts a := by simp [texts]
  refine .bind h.trans (WorkM.preserves_onDisk h.makeDirs) fun _ => ?_
  change Preserves _ (pure a.recipeJson >>= _)
  rw [pure_bind]
  refine .bind h.trans (WorkM.preserves_onDisk (h.write _ _ hrecipe)) fun _ => ?_
  refine .bind h.trans (WorkM.preserves_onDisk h.copyFiles) fun _ => ?_
  exact fun w => h.emit w _

end Stepwise

theorem touches_of_below (hc : d.cwd = d₀.cwd) (hb : Below target more p) (h : d.FileSpot p place) :
    Touches d₀ target format place := by
  left
  rw [h.eq_placeOf, Disk.placeOf_of_cwd hc, Disk.placeOf_below hb]
  exact List.prefix_append _ _

theorem reaches_write (hb : Below target more p) (c : Content) (mode : Nat) :
    Preserves (Reaches d₀ target format) (Disk.write p c mode troubles) :=
  fun _ hc => Disk.footprint_write c mode fun _ => touches_of_below hc hb

theorem reaches_chmod (hb : Below target more p) (mode : Nat) :
    Preserves (Reaches d₀ target format) (Disk.chmod p mode troubles) :=
  fun _ hc => Disk.footprint_chmod mode fun _ => touches_of_below hc hb

theorem place_of_anchor {spot : Disk.Spot} (hc : d.cwd = d₀.cwd) (hanchor : p.anchor = target.anchor)
    (h : d.Finds p spot) : spot.place = Disk.follow (d₀.start target) p.names := by
  have hstart : d.start p = d.start target := by
    rw [Disk.start, Disk.start, Path.isAbsolute, Path.isAbsolute, hanchor]
  rw [← Disk.start_of_cwd hc, ← hstart]
  exact Disk.place_eq_follow h.leads

theorem reaches_mkdir (hanchor : p.anchor = target.anchor) (hp : p.names <+: target.names ++ [Save.assetsDir]) :
    Preserves (Reaches d₀ target format) (Disk.mkdir p troubles) := by
  intro d hc
  refine Disk.footprint_mkdir fun place hf => ?_
  have hplace : place = Disk.follow (d₀.start target) p.names := place_of_anchor hc hanchor hf
  rcases List.prefix_concat_iff.1 hp with he | hp
  · refine .inl (.inl ?_)
    rw [hplace, he, Disk.follow_append, Disk.follow_of_no_dots (by decide)]
    exact List.prefix_append _ _
  · exact .inr ⟨p.names, hp, hplace⟩

theorem reaches_copyFile (hs : p.name = "" ∨ Path.IsSingle p.name) :
    Preserves (Reaches d₀ target format) (Disk.copyFile p ((target.child Save.assetsDir).child p.name) troubles) := by
  refine fun d hc => Disk.footprint_of_puts ((copyFile_puts hs d).imp_right ?_)
  rintro ⟨p', more, place, source, mode, mode', c, c', hb, -, -, hput⟩
  exact ⟨p', place, mode', c', touches_of_below hc hb hput.spot, hput⟩

/-! ### Phases -/

theorem reaches_clear : Preserves (Reaches d₀ target format) (clear target troubles) := by
  refine .bind Reaches.trans ((Disk.readOnly_pathExists target).preserves (Reaches.refl d₀ target format)) fun b => ?_
  cases b with
  | false => exact .pure (Reaches.refl d₀ target format) _
  | true =>
    intro d hc
    refine Disk.footprint_removeTree fun place es hf t => .inl ?_
    have hplace : place = d₀.placeOf target := place_of_anchor hc rfl hf
    rw [hplace]
    exact List.prefix_append _ _

theorem reaches_pack : Preserves (Reaches d₀ target .tarGz) (pack target troubles) := by
  have harchive : ∀ c, Preserves (Reaches d₀ target .tarGz) (Disk.write (archivePath target) c 0o644 troubles) :=
    fun c d hc => Disk.footprint_write c _ fun place hf => .inr ⟨rfl, by rw [hf.eq_placeOf, Disk.placeOf_of_cwd hc]⟩
  rw [pack]
  split
  · exact .throw (Reaches.refl d₀ target .tarGz) _
  · exact .bind Reaches.trans (harchive _) fun _ =>
      .bind Reaches.trans ((Disk.readOnly_members target).preserves (Reaches.refl d₀ target .tarGz)) fun _ =>
        .bind Reaches.trans (harchive _) fun _ => .pure (Reaches.refl d₀ target .tarGz) _

theorem stepwise_reaches (s : Store) (r : Recipe) (a : Artifacts) (troubles : Disk.Troubles) :
    Stepwise s r a target troubles (Reaches d₀ target format) where
  refl := .refl d₀ target format
  trans := .trans
  mkdir _ hanchor hp := reaches_mkdir hanchor hp
  write _ _ hx := reaches_write (below_of_mem_texts hx) _ _
  chmod _ _ hx mode := reaches_chmod (below_of_mem_texts hx) mode
  copyFile _ _ _ hs := reaches_copyFile hs
  append _ _ _ := .of_append _

theorem reaches_of_logged (h : Workspace.Logged w w') : Reaches d₀ target format w.disk w'.disk :=
  h.disk.rel (.refl d₀ target format) .trans fun _ _ _ => .of_append _

theorem Stepwise.install {R : Disk → Disk → Prop} (h : Stepwise s r a target troubles R)
    (hclear : Preserves R (clear target troubles)) (hpack : format = .tarGz → Preserves R (pack target troubles)) :
    Preserves (fun w w' => R w.disk w'.disk) (install s r a target format troubles) := by
  refine .bind h.trans (WorkM.preserves_onDisk hclear) fun _ => ?_
  refine .bind h.trans h.writeBundle fun _ => ?_
  refine .bind h.trans (WorkM.preserves_onDisk h.writeScripts) fun _ => ?_
  cases format with
  | dir => exact .pure (fun w => h.refl w.disk) _
  | tarGz => exact WorkM.preserves_onDisk (hpack rfl)

theorem reaches_install (s : Store) (r : Recipe) (a : Artifacts) (troubles : Disk.Troubles) :
    Preserves (fun w w' => Reaches d₀ target format w.disk w'.disk) (install s r a target format troubles) :=
  (stepwise_reaches s r a troubles).install reaches_clear fun hformat => hformat ▸ reaches_pack

/-- Whatever an export comes to, it has logged, and installed a bundle as far as that went. -/
theorem Ends.rel {R : Workspace → Workspace → Prop} (h : Ends s q r format room troubles w res w')
    (hrefl : ∀ w, R w w) (htrans : ∀ {w w' w''}, R w w' → R w' w'' → R w w'')
    (hlogged : ∀ {w w'}, Workspace.Logged w w' → R w w')
    (hinstall : ∀ a, Preserves R (Bundle.install s r a (targetOf q r w.tempDir) format troubles)) : R w w' := by
  cases h with
  | unreadable => exact hrefl _
  | refused _ _ hl => exact hlogged hl
  | unseen hpass => exact hlogged hpass.logged
  | occupied rec hpass => exact hlogged (hpass.logged.trans (Workspace.logged_emit _ rec))
  | unreported hfree => exact hlogged hfree.logged
  | uncompiled rec hfree => exact hlogged (hfree.logged.trans (Workspace.logged_emit _ rec))
  | broken hfree hrun => exact htrans (hlogged hfree.logged) ((hinstall _).of_run hrun)
  | written rec hfree _ hrun | notWritten rec hfree hrun =>
    exact htrans (hlogged hfree.logged)
      (htrans ((hinstall _).of_run hrun) (hlogged (Workspace.logged_emit _ rec)))

theorem Ends.reaches (h : Ends s q r format room troubles w res w') :
    Reaches w.disk (targetOf q r w.tempDir) format w.disk w'.disk :=
  h.rel (R := fun w₁ w₂ => Reaches w.disk (targetOf q r w.tempDir) format w₁.disk w₂.disk)
    (fun w => Reaches.refl _ _ _ w.disk) .trans reaches_of_logged fun a => reaches_install s r a troubles

theorem Format.eq_name_iff {name : String} (h : Format.ofName? name = some format) :
    name = Format.tarGz.name ↔ format = .tarGz := by
  have hname : format.name = name := eq_of_beq (List.find?_some (p := fun f : Format => f.name == name) h)
  rw [← hname]
  cases format <;> decide

/-- What an export leaves alone, whatever comes out. Without a recipe nothing is changed. Otherwise everything
stands that is neither at the target nor below it, and is not the archive beside it where one is asked for: files
keep their mode and content, but that the log may get lines at its end, and directories stay. The path to the
target leads through all that is new. -/
theorem export_reach (h : (exportProject s q).run w = (res, w')) :
    ((∀ r, ((s.loadRecipe q.project).run w).1 ≠ .ok r) → w' = w) ∧
      ∀ r, ((s.loadRecipe q.project).run w).1 = .ok r →
        w'.disk.cwd = w.disk.cwd ∧
        ∀ l, ¬ w.disk.placeOf (targetOf q r w.tempDir) <+: l →
          ¬ (q.format = Format.tarGz.name ∧ l = w.disk.placeOf (archivePath (targetOf q r w.tempDir))) →
          Node.Stands (OnWay w.disk (targetOf q r w.tempDir) l) (w.disk.held = some l)
            (w.disk.root.get? l) (w'.disk.root.get? l) := by
  cases exportProject_concludes h with
  | unsupported => exact ⟨fun _ => rfl, fun _ _ => ⟨rfl, fun _ _ _ => .refl _⟩⟩
  | notLoaded hload =>
    rw [hload]
    exact ⟨fun _ => rfl, fun _ hr => by cases hr⟩
  | @loaded r format _ _ hformat hload hexport =>
    have hends := exportRecipe_ends s q r format .standard .none w
    rw [hexport] at hends
    rw [hload]
    refine ⟨fun hnone => absurd rfl (hnone r), fun r' hr => ?_⟩
    obtain rfl := Except.ok.inj hr
    have hreach := hends.reaches rfl
    refine ⟨hreach.cwd, fun l hl harchive => hreach.stands l fun htouched => ?_⟩
    rw [Format.eq_name_iff hformat] at harchive
    exact htouched.elim hl harchive

/-- The recipe of a project that is exported stays in its store. -/
theorem export_reach_store :
    ∃ text, sampleRecipe.canonical = .ok text ∧
      ((exportProject ⟨⟨.root, ["store"]⟩⟩ { project := "p", target := some ⟨.root, ["bundle"]⟩ }).run
        (sampleWorkspace text)).2.disk.root.get? ["store", "p", "recipe.json"] =
          some (.file 0o600 (.bytes text.toUTF8)) := by
  obtain ⟨text, htext⟩ := isStorable_sample.canonical
  have hstore : (sampleWorkspace text).disk.Finds ⟨.root, ["store"]⟩
      (.found ["store"] (sampleStore text)) :=
    ⟨by decide, by decide, by rfl⟩
  have hload := loadRecipe_sample htext (finds_sample hstore).1
  refine ⟨text, htext, ?_⟩
  generalize hrun : (exportProject ⟨⟨.root, ["store"]⟩⟩
    { project := "p", target := some ⟨.root, ["bundle"]⟩ }).run (sampleWorkspace text) = out
  obtain ⟨-, hreach⟩ := export_reach hrun
  obtain ⟨-, hstands⟩ := hreach sampleRecipe (by rw [hload])
  have hbelow : ¬ ["bundle"] <+: ["store", "p", "recipe.json"] := by decide
  have hrecipe := hstands ["store", "p", "recipe.json"] hbelow fun harchive => absurd harchive.1 (by decide)
  have hbefore : (sampleWorkspace text).disk.root.get? ["store", "p", "recipe.json"] =
      some (.file 0o600 (.bytes text.toUTF8)) := rfl
  rw [hbefore] at hrecipe
  generalize out.2.disk.root.get? ["store", "p", "recipe.json"] = after at hrecipe ⊢
  cases hrecipe with
  | file => rfl
  | grown hheld => cases hheld

/-- A log that goes to a file elsewhere is longer after an export. -/
theorem export_lengthens_log :
    ∃ text w', sampleRecipe.canonical = .ok text ∧
      (exportProject ⟨⟨.root, ["store"]⟩⟩ { project := "p", target := some ⟨.root, ["elsewhere"]⟩ }).run
        (loggedWorkspace text .empty) = (.ok (.written ⟨.root, ["elsewhere"]⟩ []), w') ∧
      (loggedWorkspace text .empty).disk.root.get? ["bundle", "recipe.json"] =
        some (.file 0o644 (.bytes .empty)) ∧
      w'.disk.root.get? ["bundle", "recipe.json"] ≠ some (.file 0o644 (.bytes .empty)) := by
  obtain ⟨text, htext⟩ := isStorable_sample.canonical
  obtain ⟨a, hcompile⟩ := ofRecipe_sample htext
  have hstore : ∀ c, (loggedWorkspace text c).disk.Finds ⟨.root, ["store"]⟩
      (.found ["store"] (sampleStore text)) := fun _ => ⟨by decide, by decide, by rfl⟩
  have hload := loadRecipe_sample htext (finds_sample (hstore .empty)).1
  -- The compilation is logged first, and from then on the log is not empty.
  obtain ⟨line, hline⟩ := emit_strayLog (w := loggedWorkspace text .empty) rfl Compile.compileLog
    (Compile.compiledRecord sampleRecipe []).message
  have hlogged : (loggedWorkspace text .empty).emit (Compile.compiledRecord sampleRecipe []) =
      loggedWorkspace text (ByteArray.empty ++ (line ++ "\n").toUTF8) := hline.trans rfl
  have hfragments : Installer.fragments sampleRecipe.steps = .ok _ := rfl
  have hrecords := run_records (w := loggedWorkspace text .empty) isQuiet_strayLog check_sample hfragments rfl htext
  have hrun := run_compile (hrecords.trans (congrArg (Prod.mk _) hlogged)) hcompile
  generalize hc : ByteArray.empty ++ (line ++ "\n").toUTF8 = c at hrun
  have hfree : ∀ c, (loggedWorkspace text c).disk.Finds ⟨.root, ["elsewhere"]⟩ (.absent ["elsewhere"]) :=
    fun _ => ⟨by decide, by decide, by rfl⟩
  have hassets := (finds_sample (hstore c)).2.of_spares (Disk.spares_setAt (some (.dir []))
    (Disk.FileSpot.noDirAt (.inl (hfree c))) ⟨by decide, by decide⟩)
  obtain ⟨d, mode, hinstall, -, -⟩ := install_made (s := ⟨⟨.root, ["store"]⟩⟩) (r := sampleRecipe) (a := a)
    (w := loggedWorkspace text c) isQuiet_strayLog (run_clear_missing (hfree c).missing)
    (Disk.run_makeDirs_absent (hfree c)) ((hfree c).setAt_absent _) rfl nofun ⟨by decide, by decide⟩ hassets
    (by decide) (by decide)
  have hexport := run_exportProject (q := { project := "p", target := some ⟨.root, ["elsewhere"]⟩ })
    isQuiet_strayLog rfl hload check_sample rfl (run_isReplaceable_missing (hfree .empty).missing) hrun hinstall
  have hout : ¬ Touches (loggedWorkspace text c).disk ⟨.root, ["elsewhere"]⟩ .dir ["bundle", "recipe.json"] := by
    rintro (h | h)
    · exact absurd (show ["elsewhere"] <+: ["bundle", "recipe.json"] from h) (by decide)
    · cases h.1
  have hreach : Reaches (loggedWorkspace text c).disk _ _ _ _ := (reaches_install _ _ _ _).of_run hinstall
  obtain ⟨more, hmore⟩ := ((hreach.trans (reaches_of_logged (Workspace.logged_emit _ _)) rfl).stands _ hout).of_file
  refine ⟨text, _, htext, hexport, rfl, fun hempty => ?_⟩
  have hbytes := hempty.symm.trans hmore
  simp only [Option.some.injEq, Node.file.injEq, Content.bytes.injEq, true_and] at hbytes
  have hc₀ := (ByteArray.append_eq_empty_iff.1 hbytes.symm).1
  exact append_line_ne "" line (hc.trans hc₀)

end Bundle

end Provision
