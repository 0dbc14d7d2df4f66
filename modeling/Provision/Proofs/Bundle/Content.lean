import Provision.Proofs.Bundle.Filling
import Provision.Proofs.Bundle.Reproducible

/-!
# What is in a bundle

A bundle that has been written holds what the recipe compiles to and the files of the project, and nothing else
(`bundle_exact`), as long as the recipe carries the id under which it is stored. The id in the recipe is not
checked, so it can also lead to the files of another project (`bundle_of_foreign_files`).
-/

namespace Provision.Bundle

open Disk (LeadsTo Below Spares Holds Cleared)

variable {s : Store} {r : Recipe} {a : Artifacts} {target path : Path} {w w' : Workspace}
  {d d' : Disk} {place : List String} {es : List (String × Node)} {id : String} {u : Unit}

/-- What is compiled, and files, in the order in which a bundle gets them. -/
def content (a : Artifacts) (xs : List (String × Node)) : List (String × Node) :=
  [(Save.assetsDir, .dir xs), (Save.recipeFile, .file 0o644 (.bytes a.recipeJson.toUTF8)),
    (scriptFile, .file 0o755 (.bytes a.installSh.toUTF8)),
    (notesFile, .file 0o644 (.bytes a.readme.toUTF8))]

/-- The directory holds what the recipe compiles to at the time, and the files, and nothing else. -/
def IsBundle (r : Recipe) (time : Timestamp) (xs : List (String × Node)) (target : Path) (d : Disk) : Prop :=
  ∃ a, Artifacts.ofRecipe r (.ofTimestamp time) = .ok a ∧ d.shown target = .ok (.dir (content a xs))

/-- What the disk has to be for a bundle of a project to have its files: neither the target nor the store is in
the other, their paths do not lead into the target, and that of the target not to the files; what is at the
target is seen; and the log does not go to one of the files. -/
structure Ready (s : Store) (id : String) (target : Path) (d : Disk) : Prop where
  wellFormed : d.WellFormed
  tree : d.root.IsTree
  apart : Apart (d.placeOf target) (d.placeOf s.root)
  fromRoot : d.StaysOut s.root (d.placeOf target)
  direct : d.StaysOut target (d.placeOf target)
  files : d.Avoids target (d.placeOf (s.assetsPath id))
  seen : (d.root.get? (d.placeOf target)).isSome = true →
    ∃ spot, Disk.walk d.root (d.start target) target.names = .ok spot
  held : ∀ l, d.held = some l → ¬ d.placeOf (s.assetsPath id) <+: l

theorem Ready.of_grown (h : Ready s id target d) (hd : Disk.Grown d d') : Ready s id target d' := by
  have hplace := Disk.placeOf_of_cwd hd.cwd
  refine ⟨hd.wellFormed h.wellFormed, hd.shape.isTree h.tree, ?_, ?_, ?_, ?_, fun hsome => ?_, fun l hl => ?_⟩
  · rw [hplace, hplace]
    exact h.apart
  · rw [hplace]
    exact h.fromRoot.of_cwd hd.cwd
  · rw [hplace]
    exact h.direct.of_cwd hd.cwd
  · rw [hplace]
    exact h.files.of_cwd hd.cwd
  · rw [hplace] at hsome
    obtain ⟨n, hn⟩ := Option.isSome_iff_exists.1 hsome
    rw [hd.shape.isSome] at hsome
    obtain ⟨spot, hspot⟩ := h.seen hsome
    rw [Disk.placeOf, ← Disk.place_eq_follow hspot] at hn
    exact ⟨_, by rw [hd.start]; exact Disk.walk_keepsDirs hd.shape.keepsDirs hspot hn⟩
  · rw [hplace]
    exact h.held l (hd.held ▸ hl)

section

variable (hid : Store.isName id = true)

include hid

theorem entry_below (s : Store) : ∃ more, Below s.root more (s.entryPath id) := by
  by_cases hdot : id = "."
  · refine ⟨[], ?_⟩
    rw [hdot, Store.entryPath, Path.child_dot]
    exact .refl s.root
  · obtain ⟨hs, hd⟩ := Store.single_of_isName hid hdot
    exact ⟨[id], (Below.refl s.root).child hs hd⟩

theorem assets_below (s : Store) : ∃ more, Below s.root more (s.assetsPath id) := by
  obtain ⟨more, hbelow⟩ := entry_below hid s
  exact ⟨_, hbelow.child Save.isEntry_assetsDir.single (by decide)⟩

theorem Ready.apart_files (h : Ready s id target d) :
    Apart (d.placeOf target) (d.placeOf (s.assetsPath id)) := by
  obtain ⟨more, hbelow⟩ := assets_below hid s
  rw [Disk.placeOf_below hbelow]
  exact (h.apart.symm.append more).symm

theorem Ready.entry (h : Ready s id target d) : d.StaysOut (s.entryPath id) (d.placeOf target) := by
  obtain ⟨more, hbelow⟩ := entry_below hid s
  exact h.fromRoot.below h.apart hbelow

end

/-- For paths without names that lead up it is enough that neither the target nor the store is in the other. -/
theorem ready_of_no_dots (hd : d.Sane) (hid : Store.isName id = true) (htarget : ".." ∉ target.names)
    (hroot : ".." ∉ s.root.names) (hapart : Apart (d.placeOf target) (d.placeOf s.root))
    (hheld : ∀ l, d.held = some l → ¬ d.placeOf (s.assetsPath id) <+: l) : Ready s id target d := by
  obtain ⟨more, hbelow⟩ := assets_below hid s
  have hfiles := (hapart.symm.append more).above
  rw [← Disk.placeOf_below hbelow] at hfiles
  refine ⟨hd.wellFormed, hd.tree, hapart, Disk.staysOut_of_no_dots hroot fun h => absurd h hapart.above,
    Disk.staysOut_of_no_dots htarget fun _ => rfl, Disk.avoids_of_no_dots htarget hfiles, fun hsome => ?_, hheld⟩
  obtain ⟨n, hn⟩ := Option.isSome_iff_exists.1 hsome
  exact ⟨_, hd.walk_placeOf htarget hn⟩

/-- The files of a project are the same as long as its directory is there, with the same files. -/
theorem filesIn_eq (h : d.LeadsTo (s.entryPath id) place) (h' : d'.LeadsTo (s.entryPath id) place)
    (hsame : d'.root.get? (d.placeOf (s.assetsPath id)) = d.root.get? (d.placeOf (s.assetsPath id))) :
    Store.filesIn d' (s.assetsPath id) = Store.filesIn d (s.assetsPath id) := by
  obtain ⟨es, hl⟩ := h
  have hplace : d.placeOf (s.assetsPath id) = place ++ [Save.assetsDir] := by
    have hbelow := (Below.refl (s.entryPath id)).child Save.isEntry_assetsDir.single (by decide)
    rw [Store.assetsPath, Disk.placeOf_below hbelow, Disk.placeOf, ← Disk.place_eq_follow hl]
    rfl
  rw [hplace] at hsame
  rw [Store.filesIn, Store.filesIn, Store.assetsPath,
    Disk.shown_child ⟨es, hl⟩ h' Save.isEntry_assetsDir.single (by decide) hsame]

theorem cleared_of_clear (hready : Ready s id target d) (hnul : target.hasNul = false)
    (h : (clear target).run d = (.ok u, d')) :
    Cleared target d d' ∧ target.text.utf8ByteSize < Disk.pathLimit := by
  obtain ⟨b, d₁, hexists, h⟩ := run_bind_eq_ok.1 h
  obtain rfl := (Disk.readOnly_pathExists target).run_eq hexists
  obtain ⟨o, d₂, hprobe, hb⟩ := run_bind_eq_ok.1 hexists
  obtain rfl := (Disk.readOnly_probe target).run_eq hprobe
  cases hb
  have hshort := Disk.short_of_probe hnul hprobe
  refine ⟨?_, hshort⟩
  cases o with
  | some n => exact Disk.cleared_of_removeTree hready.tree h
  | none =>
    cases h
    refine .of_none hready.wellFormed (Option.not_isSome_iff_eq_none.1 fun hsome => ?_)
    obtain ⟨spot, hspot⟩ := hready.seen hsome
    cases spot with
    | found l n => cases (Disk.run_probe_found ⟨hnul, hshort, hspot⟩).symm.trans hprobe
    | absent l =>
      rw [Disk.placeOf, ← Disk.place_eq_follow hspot] at hsome
      rw [Disk.Spot.place, Disk.get_absent hspot] at hsome
      cases hsome

/-- Where the last name of the target is that of an entry, the archive is another entry of the same directory. -/
theorem leadsApart_archive {ns : List String} {x : String} (hx : target.names = ns ++ [x])
    (hplace : d.placeOf target = Disk.follow (d.start target) ns ++ [x]) :
    d.LeadsApart (archivePath target) (d.placeOf target) := by
  intro spot hspot
  have harchive := Disk.place_eq_follow (Disk.walk_of_locate hspot)
  have hlast : target.name = x := by simp [Path.name, hx]
  have hnames : (archivePath target).names = ns ++ [x ++ ".tar.gz"] := by
    rw [archivePath, Path.withName, hx, List.dropLast_concat, hlast]
  have hstart : d.start (archivePath target) = d.start target := rfl
  rw [hnames, hstart, Disk.follow_append, Disk.follow_of_no_dots
    (by simpa using (archive_not_mem_files x).2.symm)] at harchive
  rw [harchive, hplace]
  refine apart_entries _ fun he => ?_
  exact absurd (String.append_eq_left_iff.1 he) (by decide)

theorem archive_apart (h : d.Holds target place es) (hout : d.StaysOut target place) (hne : place ≠ [])
    (hname : target.name ≠ "") : d.LeadsApart (archivePath target) place := by
  have hplace : place = d.placeOf target := Disk.place_eq_follow h.finds.leads
  rw [hplace] at hout hne ⊢
  obtain ⟨ns, hx⟩ := Path.names_eq_concat hname
  exact leadsApart_archive hx (hout.placeOf_concat hne hx)

theorem spares_archive (h : d.Holds target place es) (hout : d.StaysOut target place) (hne : place ≠ [])
    (hname : target.name ≠ "") {c : Content}
    (hw : (Disk.write (archivePath target) c).run d = (.ok u, d')) : Spares place d d' := by
  have hspares := Disk.spares_write (archive_apart h hout hne hname) c 0o644 .none
  rwa [hw] at hspares

theorem holds_pack (h : d.Holds target place es) (hout : d.StaysOut target place) (hne : place ≠ [])
    (hp : (pack target).run d = (.ok path, d')) : d'.Holds target place es := by
  rw [pack] at hp
  split at hp
  · cases hp
  · rename_i hname
    obtain ⟨_, d₁, h1, hp⟩ := run_bind_eq_ok.1 hp
    obtain ⟨ms, d₂, h2, hp⟩ := run_bind_eq_ok.1 hp
    obtain rfl := (Disk.readOnly_members target).run_eq h2
    obtain ⟨_, d₃, h3, hp⟩ := run_bind_eq_ok.1 hp
    cases hp
    have hs := spares_archive h hout hne hname h1
    have h₁ := h.of_spares hs
    exact h₁.of_spares (spares_archive h₁ (hout.of_cwd hs.cwd) hne hname h3)

theorem holds_writeScripts (h : d.Holds target place es) (hscript : scriptFile ∉ es.map (·.1))
    (hnotes : notesFile ∉ es.map (·.1)) (hw : (writeScripts target a).run d = (.ok u, d')) :
    d'.Holds target place (es ++ [(scriptFile, .file 0o755 (.bytes a.installSh.toUTF8)),
      (notesFile, .file 0o644 (.bytes a.readme.toUTF8))]) := by
  obtain ⟨u₁, d₁, h1, hw⟩ := run_bind_eq_ok.1 hw
  obtain ⟨u₂, d₂, h2, hw⟩ := run_bind_eq_ok.1 hw
  have h₂ := h.writeText isEntry_scriptFile.single (by decide) hscript (run_bind_eq_ok.2 ⟨u₁, d₁, h1, h2⟩)
  have hnew : notesFile ∉ (es ++ [(scriptFile, Node.file 0o755 (.bytes a.installSh.toUTF8))]).map (·.1) := by
    rw [List.map_append, List.mem_append, not_or]
    exact ⟨hnotes, by simp [scriptFile, notesFile]⟩
  have h₃ := h₂.writeText isEntry_notesFile.single (by decide) hnew hw
  rwa [List.append_assoc] at h₃

theorem holds_emit (h : w.disk.Holds target place es) (rec : Log.Record) :
    (w.emit rec).disk.Holds target place es :=
  h.of_spares ((Workspace.logs_emit w rec).disk.spares h.held)

theorem noNul_of_writeBundle {text : String}
    (h : (s.writeBundle r target (some text)).run w = (.ok u, w')) : target.hasNul = false := by
  obtain ⟨d₁, -, -, hdirs, -⟩ := writeBundle_phases h
  obtain ⟨l, es, hfinds⟩ := Disk.finds_of_makeDirs hdirs
  exact Path.noNul_of_child Save.isEntry_assetsDir.single hfinds.noNul

theorem holds_writeBundle {text : String} {d₀ : Disk} (hid : Store.isName id = true)
    (hready : Ready s id target d₀) (hcleared : Cleared target d₀ w.disk)
    (hshort : target.text.utf8ByteSize < Disk.pathLimit) (hentry : d₀.LeadsTo (s.entryPath id) place)
    (hnul : (s.assetsPath id).hasNul = false) (hsame : s.assetsPath r.project.id = s.assetsPath id)
    (h : (s.writeBundle r target (some text)).run w = (.ok u, w')) :
    w'.disk.Holds target (d₀.placeOf target)
      [(Save.assetsDir, .dir (Store.filesIn d₀ (s.assetsPath id))),
        (Save.recipeFile, .file 0o644 (.bytes text.toUTF8))] ∧ w'.disk.cwd = d₀.cwd := by
  obtain ⟨d₁, d₃, d₄, hdirs, hwrite, hcopy, rfl⟩ := writeBundle_phases h
  have hapart := hready.apart_files hid
  -- The directories are made,
  have htarget := Disk.placeOf_of_cwd hcleared.cwd target
  obtain ⟨hfinds, hspares₁, hheld₁⟩ := Disk.makeDirs_child_eq_ok Save.isEntry_assetsDir.single
    (by decide) hshort (htarget ▸ hcleared.gone)
    (htarget ▸ hready.direct.of_cwd hcleared.cwd) (hready.files.of_cwd hcleared.cwd)
    (htarget ▸ hapart.above) hdirs
  rw [htarget] at hfinds
  have h₁ : d₁.Holds target (d₀.placeOf target) [(Save.assetsDir, .dir [])] :=
    ⟨hfinds, fun t ht => (hcleared.held t (hheld₁ ▸ ht)).2⟩
  -- the recipe is written,
  obtain ⟨h₃, hspares₃⟩ := h₁.write Save.isEntry_recipeFile.single (by decide) (by decide) hwrite
  -- and of the files there are those that there were, which are copied.
  have hspares := hspares₁.trans (hspares₃ _ hapart)
  have hcwd : d₃.cwd = d₀.cwd := hspares.cwd.trans hcleared.cwd
  have hnode := hspares.node.trans (hcleared.node _ hapart)
  have hentry₁ := hentry.of_cleared hcleared (hready.entry hid) hspares₁.cwd hspares₁.dirs
    (Disk.get_of_walk hfinds.leads)
  have hfiles := filesIn_eq hentry (hentry₁.of_spares (hspares₃ _ hapart)) hnode
  have hkeeps := keeps_copyFiles List.mem_cons_self h₃.leadsTo hcopy
  rw [hsame] at hcopy
  have h₄ := h₃.copyFiles Save.isEntry_assetsDir rfl hnul (fun source src hsrc => ?_) hcopy
  · rw [hfiles] at h₄
    exact ⟨holds_emit h₄ _, (Workspace.logs_emit _ _).disk.cwd.trans (hkeeps.cwd.trans hcwd)⟩
  · have hsource : source = d₀.placeOf (s.assetsPath id) := by
      rw [← Disk.placeOf_of_cwd hcwd]
      exact Disk.place_eq_follow hsrc.leads
    have hget := Disk.get_of_walk hsrc.leads
    rw [hsource, hnode] at hget
    exact ⟨hsource ▸ hapart, hready.tree _ src hget⟩

/-- A bundle that has been written holds what was compiled and the files of the project. -/
theorem holds_install {format : Format} (hid : Store.isName id = true)
    (hready : Ready s id target w.disk) (hentry : w.disk.LeadsTo (s.entryPath id) place)
    (hnul : (s.assetsPath id).hasNul = false) (hsame : s.assetsPath r.project.id = s.assetsPath id)
    (h : (install s r a target format).run w = (.ok path, w')) :
    w'.disk.Holds target (w.disk.placeOf target)
      (content a (Store.filesIn w.disk (s.assetsPath id))) := by
  obtain ⟨d₁, w₂, d₃, hclear, hbundle, hscripts, hformat⟩ := install_eq_ok h
  have htarget := noNul_of_writeBundle hbundle
  obtain ⟨hcleared, hshort⟩ := cleared_of_clear hready htarget hclear
  obtain ⟨h₂, hcwd⟩ := holds_writeBundle hid hready hcleared hshort hentry hnul hsame hbundle
  have h₃ := holds_writeScripts h₂ (by simp [Save.assetsDir, Save.recipeFile, scriptFile])
    (by simp [Save.assetsDir, Save.recipeFile, notesFile]) hscripts
  rcases hformat with ⟨-, -, rfl⟩ | ⟨-, d₄, hpack, rfl⟩
  · exact h₃
  · have hkeeps := (writeScripts_eq_ok h₂.leadsTo hscripts).2.2
    exact holds_pack h₃ (hready.direct.of_cwd (hkeeps.cwd.trans hcwd)) hcleared.place_ne_nil hpack

/-- The files are those of the project whose recipe has been loaded, where that leads to its directory. -/
theorem holds_of_load {w₁ : Workspace} {format : Format} (hload : (s.loadRecipe id).run w = (.ok r, w))
    (hsame : s.assetsPath r.project.id = s.assetsPath id) (hready : Ready s id target w.disk)
    (hlogs : Workspace.Logs w w₁) (h : (install s r a target format).run w₁ = (.ok path, w')) :
    w'.disk.Holds target (w₁.disk.placeOf target) (content a (Store.filesIn w.disk (s.assetsPath id))) := by
  obtain ⟨hid, l, mode, c, hfile, -⟩ := Store.loadRecipe_eq_ok hload
  obtain ⟨place, hentry, -⟩ := Disk.leadsTo_of_child Save.isEntry_recipeFile.single (by decide)
    (.inr ⟨mode, c, hfile⟩)
  have hnul := Path.noNul_child Save.isEntry_assetsDir
    (Path.noNul_of_child Save.isEntry_recipeFile.single hfile.noNul)
  have hentry₁ := hlogs.disk.leadsTo hentry
  have hnode : w₁.disk.root.get? (w.disk.placeOf (s.assetsPath id)) =
      w.disk.root.get? (w.disk.placeOf (s.assetsPath id)) :=
    hlogs.disk.node _ hready.held
  rw [← filesIn_eq hentry hentry₁ hnode]
  exact holds_install hid (hready.of_grown hlogs.disk) hentry₁ hnul hsame h

/-- A bundle holds exactly what the recipe compiles to and the files of the exported project, where the recipe
carries the id of that project, or one that leads to the same directory. -/
theorem bundle_exact {q : Request} {issues : List Issue}
    (hload : ((s.loadRecipe q.project).run w).1 = .ok r)
    (hsame : s.assetsPath r.project.id = s.assetsPath q.project)
    (hready : Ready s q.project (targetOf q r w.tempDir) w.disk)
    (hexport : (exportProject s q).run w = (.ok (.written path issues), w')) :
    IsBundle r w.now (Store.filesIn w.disk (s.assetsPath q.project)) (targetOf q r w.tempDir) w'.disk := by
  obtain ⟨r₀, format, a, w₁, w₂, rec, hl, -, -, hlogs, ha, hinstall, rfl⟩ := exportProject_eq_written hexport
  obtain rfl : r₀ = r := by rw [hl] at hload; exact Except.ok.inj hload
  have hholds := holds_of_load hl hsame hready hlogs hinstall
  exact ⟨a, ha, (holds_emit hholds rec).finds.shown⟩

/-! ### Two projects with one recipe -/

/-- A store with a project that has a file, and another one whose recipe carries the id of the first. -/
def copiedRecipe (text : String) : Workspace where
  disk :=
    { root := .dir [("store", .dir [
        ("p", .dir [("assets", .dir [("f", .file 0o644 (.bytes ⟨#[1]⟩))]),
          ("recipe.json", .file 0o600 (.bytes text.toUTF8))]),
        ("q", .dir [("assets", .dir []), ("recipe.json", .file 0o600 (.bytes text.toUTF8))])])]
      cwd := [] }
  tempDir := ⟨.root, ["tmp"]⟩
  now := .epoch

theorem isEntry_copiedRecipe {name : String}
    (h : name ∈ ["store", "p", "q", "assets", "recipe.json", "f"]) : Path.IsEntry name := by
  simp only [List.mem_cons, List.not_mem_nil, or_false] at h
  rcases h with rfl | rfl | rfl | rfl | rfl | rfl <;>
    exact ⟨⟨by simp, by decide, by decide⟩, ⟨by decide, by decide⟩, by decide⟩

theorem isTree_copiedRecipe (text : String) : (copiedRecipe text).disk.root.IsTree := by
  have hdir := Node.isTree_dir_of_mem fun _ => isEntry_copiedRecipe
  have hassets := hdir [("f", .file 0o644 (.bytes ⟨#[1]⟩))] (by simp [IsKeyed]) (by simp)
    (by simpa using Node.isTree_file _ _)
  have hp := hdir [("assets", _), ("recipe.json", .file 0o600 (.bytes text.toUTF8))] (by simp [IsKeyed])
    (by simp) (by simpa using ⟨hassets, Node.isTree_file _ _⟩)
  have hq := hdir [("assets", .dir []), ("recipe.json", .file 0o600 (.bytes text.toUTF8))]
    (by simp [IsKeyed]) (by simp)
    (by simpa using ⟨hdir [] isKeyed_nil nofun nofun, Node.isTree_file _ _⟩)
  have hstore := hdir [("p", _), ("q", _)] (by simp [IsKeyed]) (by simp) (by simpa using ⟨hp, hq⟩)
  exact hdir [("store", _)] (by simp [IsKeyed]) (by simp) (by simpa using hstore)

theorem finds_copiedRecipe (text : String) :
    (copiedRecipe text).disk.Finds (Store.recipePath ⟨⟨.root, ["store"]⟩⟩ "p")
        (.found ["store", "p", "recipe.json"] (.file 0o600 (.bytes text.toUTF8))) ∧
      (copiedRecipe text).disk.Finds (Store.recipePath ⟨⟨.root, ["store"]⟩⟩ "q")
        (.found ["store", "q", "recipe.json"] (.file 0o600 (.bytes text.toUTF8))) ∧
      (copiedRecipe text).disk.Finds (Store.assetsPath ⟨⟨.root, ["store"]⟩⟩ "p")
        (.found ["store", "p", "assets"] (.dir [("f", .file 0o644 (.bytes ⟨#[1]⟩))])) ∧
      (copiedRecipe text).disk.Finds (Store.assetsPath ⟨⟨.root, ["store"]⟩⟩ "q")
        (.found ["store", "q", "assets"] (.dir [])) := by
  have hpaths : Store.recipePath ⟨⟨.root, ["store"]⟩⟩ "p" = ⟨.root, ["store", "p", "recipe.json"]⟩ ∧
      Store.recipePath ⟨⟨.root, ["store"]⟩⟩ "q" = ⟨.root, ["store", "q", "recipe.json"]⟩ ∧
      Store.assetsPath ⟨⟨.root, ["store"]⟩⟩ "p" = ⟨.root, ["store", "p", "assets"]⟩ ∧
      Store.assetsPath ⟨⟨.root, ["store"]⟩⟩ "q" = ⟨.root, ["store", "q", "assets"]⟩ := by
    decide
  rw [hpaths.1, hpaths.2.1, hpaths.2.2.1, hpaths.2.2.2]
  exact ⟨⟨by decide, by decide, rfl⟩, ⟨by decide, by decide, rfl⟩, ⟨by decide, by decide, rfl⟩,
    ⟨by decide, by decide, rfl⟩⟩

theorem filesIn_copiedRecipe (text : String) :
    Store.filesIn (copiedRecipe text).disk (Store.assetsPath ⟨⟨.root, ["store"]⟩⟩ "p") =
        [("f", .file 0o644 (.bytes ⟨#[1]⟩))] ∧
      Store.filesIn (copiedRecipe text).disk (Store.assetsPath ⟨⟨.root, ["store"]⟩⟩ "q") = [] := by
  obtain ⟨-, -, hp, hq⟩ := finds_copiedRecipe text
  rw [Store.filesIn, Store.filesIn, hp.shown, hq.shown]
  simp only [sortByKey, List.mergeSort_singleton, List.mergeSort_nil]
  exact ⟨rfl, rfl⟩

theorem ready_copiedRecipe {id : String} (hid : Store.isName id = true) (text : String) :
    Ready ⟨⟨.root, ["store"]⟩⟩ id ⟨.root, ["bundle"]⟩ (copiedRecipe text).disk :=
  ready_of_no_dots ⟨⟨nofun, nofun⟩, isTree_copiedRecipe text⟩ hid (by decide) (by decide)
    (apart_entries [] (by decide : "bundle" ≠ "store")) nofun

/-- An export of a project with the sample recipe gets the file of the project whose id that carries. -/
theorem export_sample {id : String} {source : List String} (hlog : w.log = .none) (hnow : w.now = .epoch)
    (hload : (Store.loadRecipe ⟨⟨.root, ["store"]⟩⟩ id).run w = (.ok sampleRecipe, w))
    (hfree : w.disk.Finds ⟨.root, ["bundle"]⟩ (.absent ["bundle"]))
    (hassets : w.disk.Finds (Store.assetsPath ⟨⟨.root, ["store"]⟩⟩ "p")
      (.found source (.dir [("f", .file 0o644 (.bytes ⟨#[1]⟩))]))) (hapart : ¬ source <+: ["bundle"]) :
    ∃ w' es, (exportProject ⟨⟨.root, ["store"]⟩⟩ { project := id, target := some ⟨.root, ["bundle"]⟩ }).run w =
        (.ok (.written ⟨.root, ["bundle"]⟩ []), w') ∧
      w'.disk.Finds ⟨.root, ["bundle"]⟩ (.found ["bundle"] (.dir es)) ∧
      es.lookup Save.assetsDir = some (.dir [("f", .file 0o644 (.bytes ⟨#[1]⟩))]) := by
  obtain ⟨text, htext⟩ := isStorable_sample.canonical
  obtain ⟨a, hcompile⟩ := ofRecipe_sample htext
  have hroom : (⟨.root, ["bundle"]⟩ : Path).Room 12 := ⟨by decide, by decide⟩
  have hentry : Path.IsEntry "f" := isEntry_copiedRecipe (by simp)
  have hstore : (⟨.root, ["store"]⟩ : Path).Room 12 := ⟨by decide, by decide⟩
  have hsrc : Copyable [("f", .file 0o644 (.bytes ⟨#[1]⟩))] (Store.assetsPath ⟨⟨.root, ["store"]⟩⟩ "p")
      ((⟨.root, ["bundle"]⟩ : Path).child Save.assetsDir) := by
    refine ⟨by simp [IsKeyed], fun x hx _ => ?_⟩
    obtain rfl := List.mem_singleton.1 hx
    have hassets : ∀ {p : Path}, p.Room 9 → ((p.child Save.assetsDir).child "f").Room 0 := fun hp =>
      ((hp.mono (by decide)).child (k := 2) Save.isEntry_assetsDir).child hentry
    exact ⟨hentry, hassets ((hstore.mono (by decide)).child isEntry_p), hassets (hroom.mono (by decide))⟩
  obtain ⟨w', es, hexport, hfinds, hlookup⟩ := exportProject_copied (s := ⟨⟨.root, ["store"]⟩⟩)
    (q := { project := id, target := some ⟨.root, ["bundle"]⟩ }) hlog rfl hload check_sample rfl (hnow ▸ hcompile)
    hfree hroom hassets hsrc hapart
  refine ⟨w', es, hexport, hfinds, hlookup.trans ?_⟩
  rw [sortByKey, List.mergeSort_singleton]
  rfl

theorem export_copiedRecipe {text id : String} {l : List String} (hid : Store.isName id = true)
    (htext : sampleRecipe.canonical = .ok text)
    (hfile : (copiedRecipe text).disk.Finds (Store.recipePath ⟨⟨.root, ["store"]⟩⟩ id)
      (.found l (.file 0o600 (.bytes text.toUTF8)))) :
    (Store.loadRecipe ⟨⟨.root, ["store"]⟩⟩ id).run (copiedRecipe text) =
        (.ok sampleRecipe, copiedRecipe text) ∧
      ∃ w' es, (exportProject ⟨⟨.root, ["store"]⟩⟩ { project := id, target := some ⟨.root, ["bundle"]⟩ }).run
          (copiedRecipe text) = (.ok (.written ⟨.root, ["bundle"]⟩ []), w') ∧
        w'.disk.Finds ⟨.root, ["bundle"]⟩ (.found ["bundle"] (.dir es)) ∧
        es.lookup Save.assetsDir = some (.dir [("f", .file 0o644 (.bytes ⟨#[1]⟩))]) := by
  have hload := Store.run_loadRecipe hid hfile (parse_sample htext _ (copiedRecipe text).now)
  obtain ⟨-, -, hassets, -⟩ := finds_copiedRecipe text
  exact ⟨hload, export_sample rfl rfl hload ⟨by decide, by decide, rfl⟩ hassets (by decide)⟩

theorem bundle_exact_copied :
    ∃ text w', sampleRecipe.canonical = .ok text ∧
      (exportProject ⟨⟨.root, ["store"]⟩⟩ { project := "p", target := some ⟨.root, ["bundle"]⟩ }).run
        (copiedRecipe text) = (.ok (.written ⟨.root, ["bundle"]⟩ []), w') ∧
      IsBundle sampleRecipe .epoch [("f", .file 0o644 (.bytes ⟨#[1]⟩))] ⟨.root, ["bundle"]⟩ w'.disk := by
  obtain ⟨text, htext⟩ := isStorable_sample.canonical
  obtain ⟨hrecipe, -⟩ := finds_copiedRecipe text
  obtain ⟨hload, w', -, hexport, -⟩ := export_copiedRecipe (by decide) htext hrecipe
  have hbundle := bundle_exact (s := ⟨⟨.root, ["store"]⟩⟩) (r := sampleRecipe) (w := copiedRecipe text)
    (q := { project := "p", target := some ⟨.root, ["bundle"]⟩ }) (by rw [hload]) rfl
    (ready_copiedRecipe (by decide) text) hexport
  exact ⟨text, w', htext, hexport, (filesIn_copiedRecipe text).1 ▸ hbundle⟩

/-- The bundle of a project whose recipe carries the id of another one has the file of the other one. -/
theorem bundle_of_foreign_files :
    ∃ text w', sampleRecipe.canonical = .ok text ∧
      (Store.loadRecipe ⟨⟨.root, ["store"]⟩⟩ "q").run (copiedRecipe text) =
        (.ok sampleRecipe, copiedRecipe text) ∧
      Ready ⟨⟨.root, ["store"]⟩⟩ "q" ⟨.root, ["bundle"]⟩ (copiedRecipe text).disk ∧
      (exportProject ⟨⟨.root, ["store"]⟩⟩ { project := "q", target := some ⟨.root, ["bundle"]⟩ }).run
        (copiedRecipe text) = (.ok (.written ⟨.root, ["bundle"]⟩ []), w') ∧
      ¬ IsBundle sampleRecipe .epoch
        (Store.filesIn (copiedRecipe text).disk (Store.assetsPath ⟨⟨.root, ["store"]⟩⟩ "q"))
        ⟨.root, ["bundle"]⟩ w'.disk := by
  obtain ⟨text, htext⟩ := isStorable_sample.canonical
  obtain ⟨-, hrecipe, -⟩ := finds_copiedRecipe text
  obtain ⟨hload, w', es, hexport, hfinds, hlookup⟩ := export_copiedRecipe (by decide) htext hrecipe
  refine ⟨text, w', htext, hload, ready_copiedRecipe (by decide) text, hexport, ?_⟩
  rintro ⟨a, -, hshown⟩
  rw [(filesIn_copiedRecipe text).2, hfinds.shown] at hshown
  obtain rfl := Node.dir.inj (Except.ok.inj hshown)
  have hempty : (content a []).lookup Save.assetsDir = some (.dir []) := rfl
  rw [hempty] at hlookup
  cases hlookup

end Provision.Bundle
