import Provision.Proofs.Bundle.Elsewhere
import Provision.Proofs.Store.Refinement

/-!
# Exports over time

Projects are saved and exported to one target, in whatever order, and others put files there in between
(`Reached`). The store goes on holding what has been saved (`Ongoing.of_reached`), so every export leaves just
the bundle of its project, as it was saved last (`bundle_after_history`). A call for the project named by a single
dot is the exception (`bundle_after_dot`).
-/

namespace Provision

open Disk (Confined)
open Workspace (Logs)

theorem Node.IsTree.get {n c : Node} {l : List String} (h : n.IsTree) (hl : n.get? l = some c) : c.IsTree := by
  intro t es ht
  refine h (l ++ t) es ?_
  rw [Node.get_append, hl]
  exact ht

theorem Store.InUse.finds_recipe {s : Store} {m : Ledger} {d : Disk} {id : String} {r : Recipe} (h : s.InUse m d)
    (hid : isName id = true) (hdot : id ≠ ".") (hr : (m.record id).recipe = some r)
    (hnul : (s.recipePath id).hasNul = false) (hshort : (s.recipePath id).text.utf8ByteSize < Disk.pathLimit) :
    d.Finds (s.recipePath id) (.found (d.placeOf (s.recipePath id)) (.file 0o600 (.bytes r.fileText.toUTF8))) := by
  have hbelow := (below_entryPath s hid).child Save.isEntry_recipeFile.single (by decide)
  refine h.sane.finds ?_ hnul hshort ?_
  · rw [recipePath, hbelow.names, List.mem_append, not_or]
    exact ⟨h.dots, hbelow.down⟩
  · have hrecipe := h.stocked.recipe id
    rw [hr, Option.map_some] at hrecipe
    rw [placeOf_recipePath, placeOf_entry s d hid hdot, List.append_assoc]
    exact hrecipe

namespace Bundle

variable {s : Store} {target path : Path} {ids : String → Prop} {m m' : Ledger} {w w' : Workspace} {d d' : Disk}
  {q : Request} {issues : List Issue} {r : Recipe} {a : Artifacts} {format : Format}

/-- An empty store and a target apart from it. The paths to both have no names that lead up, and the log goes
neither to the store nor to the archive. -/
structure Fresh (s : Store) (target : Path) (d : Disk) : Prop where
  sane : d.Sane
  rootPath : s.root.Clean ∧ ".." ∉ s.root.names
  targetPath : target.Clean ∧ ".." ∉ target.names
  apart : Apart (d.placeOf target) (d.placeOf s.root)
  log : ∀ l, d.held = some l → ¬ d.placeOf s.root <+: l ∧ l ≠ d.placeOf (archivePath target)
  empty : d.root.get? (d.placeOf s.root) = none ∨ d.root.get? (d.placeOf s.root) = some (.dir [])

/-- What successful calls for projects with such ids lead to, and what they have saved. Others have changed what is
at the target, and time has passed. -/
inductive Reached (s : Store) (target : Path) (ids : String → Prop) : Ledger → Workspace → Prop
  | start {w : Workspace} : Fresh s target w.disk → Reached s target ids {} w
  | create {m : Ledger} {w w' : Workspace} {name description : String} {targets : List String} {r : Recipe} :
    Reached s target ids m w → (s.createProject name description targets).run w = (.ok r, w') →
    Reached s target ids (m.saveRecipe r) w'
  | save {m : Ledger} {w w' : Workspace} {r stored : Recipe} : Reached s target ids m w → ids r.project.id →
    (s.saveRecipe r).run w = (.ok stored, w') → Reached s target ids (m.saveRecipe stored) w'
  | saveAsset {m : Ledger} {w w' : Workspace} {id filename : String} {bytes : ByteArray} {path : Path} :
    Reached s target ids m w → ids id → (s.saveAsset id filename bytes).run w = (.ok path, w') →
    Reached s target ids (m.saveFile id filename bytes) w'
  | export {m : Ledger} {w w' : Workspace} {q : Request} {path : Path} {issues : List Issue} :
    Reached s target ids m w → ids q.project → q.target = some target →
    (exportProject s q).run w = (.ok (.written path issues), w') → Reached s target ids m w'
  | others {m : Ledger} {w : Workspace} {disk : Disk} {now : Timestamp} : Reached s target ids m w →
    Confined target w.disk disk → Reached s target ids m { w with disk, now }

theorem Reached.mono {ids' : String → Prop} (h : Reached s target ids m w) (hids : ∀ id, ids id → ids' id) :
    Reached s target ids' m w := by
  induction h with
  | start h => exact .start h
  | create _ hrun ih => exact .create ih hrun
  | save _ hid hrun ih => exact .save ih (hids _ hid) hrun
  | saveAsset _ hid hrun ih => exact .saveAsset ih (hids _ hid) hrun
  | «export» _ hid htarget hrun ih => exact .export ih (hids _ hid) htarget hrun
  | others _ hc ih => exact .others ih hc

/-- What an export of a project leaves, going by what has been saved: at the target the compiled recipe and the
files of the project and nothing else, and beside it, if that is asked for, an archive of it. -/
structure Delivers (s : Store) (m : Ledger) (q : Request) (target path : Path) (w w' : Workspace) (r : Recipe)
    (a : Artifacts) : Prop where
  loaded : (s.loadRecipe q.project).run w = (.ok r, w)
  saved : ∃ stored, (m.record q.project).recipe = some stored ∧ r.project = stored.project ∧
    (stored.IsStorable → r = stored.ordered)
  compiled : Artifacts.ofRecipe r (.ofTimestamp w.now) = .ok a
  shown : w'.disk.shown target = .ok (.dir (content a (m.files q.project)))
  listed : ((s.listAssets q.project).run w').1 = .ok (m.assets q.project)
  answer : q.format = Format.dir.name ∧ path = target ∨
    q.format = Format.tarGz.name ∧ path = archivePath target ∧ ∃ members,
      w'.disk.HasFile path (w'.disk.placeOf path) (.archive members) ∧
      Disk.Packs target.name (.dir (content a (m.files q.project))) members

structure Ongoing (s : Store) (target : Path) (m : Ledger) (d : Disk) : Prop where
  store : s.InUse m d
  clean : target.Clean
  dots : ".." ∉ target.names
  apart : Apart (d.placeOf target) (d.placeOf s.root)
  log : ∀ l, d.held = some l → l ≠ d.placeOf (archivePath target)

namespace Ongoing

theorem of_fresh (h : Fresh s target d) : Ongoing s target {} d :=
  ⟨⟨h.rootPath.1, h.rootPath.2, h.sane, fun l hl => (h.log l hl).1, Store.stocked_empty h.empty 0⟩,
    h.targetPath.1, h.targetPath.2, h.apart, fun l hl => (h.log l hl).2⟩

theorem of_stays (h : Ongoing s target m d) (hs : d.Stays d') (hstore : s.InUse m' d') : Ongoing s target m' d' := by
  refine ⟨hstore, h.clean, h.dots, ?_, fun l hl => ?_⟩
  · rw [Disk.placeOf_of_cwd hs.cwd, Disk.placeOf_of_cwd hs.cwd]
    exact h.apart
  · rw [Disk.placeOf_of_cwd hs.cwd]
    exact h.log l (hs.held l hl)

theorem of_logs (h : Ongoing s target m w.disk) (hlogs : Logs w w') : Ongoing s target m w'.disk :=
  h.of_stays (.of_grown hlogs.disk) (h.store.of_logs hlogs)

theorem install (h : Ongoing s target m w.disk) (hid : Store.isName q.project = true) {stored : Recipe}
    (hstored : (m.record q.project).recipe = some stored)
    (hrun : (install s r a target format).run w = (.ok path, w')) : Ongoing s target m w'.disk := by
  obtain ⟨h', hs⟩ := inUse_install h.dots hid h.store h.apart h.clean hstored hrun
  exact h.of_stays hs h'

theorem «export» (h : Ongoing s target m w.disk) (hdot : q.project ≠ ".") (htarget : q.target = some target)
    (hexport : (exportProject s q).run w = (.ok (.written path issues), w')) : Ongoing s target m w'.disk := by
  obtain ⟨r, format, a, w₁, w₂, rec, hload, -, -, hlogs, -, hinstall, rfl⟩ := exportProject_eq_written hexport
  obtain ⟨hid, -⟩ := Store.loadRecipe_eq_ok hload
  obtain ⟨stored, hstored, -⟩ := h.store.recipe_of_load hdot hload
  rw [targetOf, htarget, Option.getD_some] at hinstall
  exact ((h.of_logs hlogs).install hid hstored hinstall).of_logs (Workspace.logs_emit w₂ rec)

theorem of_reached (h : Reached s target (· ≠ ".") m w) : Ongoing s target m w.disk := by
  induction h with
  | start h => exact .of_fresh h
  | create _ hrun ih =>
    obtain ⟨h', hs⟩ := ih.store.createProject hrun
    exact ih.of_stays hs.toStays h'
  | save _ hdot hrun ih =>
    obtain ⟨h', hs⟩ := ih.store.saveRecipe hdot hrun
    exact ih.of_stays hs.toStays h'
  | saveAsset _ hdot hrun ih =>
    obtain ⟨h', hs⟩ := ih.store.saveAsset hdot hrun
    exact ih.of_stays hs.toStays h'
  | «export» _ hdot htarget hrun ih => exact ih.export hdot htarget hrun
  | others _ hc ih => exact ih.of_stays hc.toStays (ih.store.of_confined hc ih.apart)

end Ongoing

theorem name_of_ofName {x : String} (h : Format.ofName? x = some format) : x = format.name := by
  have hname := List.find?_some h
  exact (eq_of_beq hname).symm

namespace Ongoing

theorem archived {place : List String} {es : List (String × Node)} (h : Ongoing s target m d)
    (hholds : d.Holds target place es) (hp : (pack target).run d = (.ok path, d')) :
    path = archivePath target ∧ ∃ members, d'.HasFile path (d'.placeOf path) (.archive members) ∧
      Disk.Packs target.name (.dir es) members := by
  obtain rfl : place = d.placeOf target := Disk.place_eq_follow hholds.finds.leads
  have hne : d.placeOf target ≠ [] := fun hnil => h.apart.above (hnil ▸ List.nil_prefix)
  have hout : d.StaysOut target (d.placeOf target) := Disk.staysOut_of_no_dots h.dots fun _ => rfl
  obtain ⟨hpath, mode, hfile⟩ := archived_of_pack hholds hout hne hp
  have htree : (Node.dir es).IsTree := h.store.sane.tree.get (Disk.get_of_walk hholds.finds.leads)
  refine ⟨hpath, _, ⟨mode, ?_⟩, Disk.packs_membersOf htree target.name⟩
  have hplace : d.placeOf path = d'.placeOf path := Disk.place_eq_follow hfile.leads
  exact hplace ▸ hfile

theorem delivers (h : Ongoing s target m w.disk) (hdot : q.project ≠ ".") (htarget : q.target = some target)
    (hexport : (exportProject s q).run w = (.ok (.written path issues), w')) :
    ∃ r a, Delivers s m q target path w w' r a := by
  have h' := h.export hdot htarget hexport
  obtain ⟨r, format, a, w₁, w₂, rec, hload, hformat, -, hlogs, ha, hinstall, rfl⟩ := exportProject_eq_written hexport
  rw [targetOf, htarget, Option.getD_some] at hinstall
  -- The recipe carries the id under which it has been saved, so the files are those of the project.
  obtain ⟨hid, l, mode, c, hfile, -⟩ := Store.loadRecipe_eq_ok hload
  obtain ⟨stored, hstored, hproject, hordered⟩ := h.store.recipe_of_load hdot hload
  obtain ⟨hstoredId, -⟩ := h.store.stocked.filed.recipes q.project stored hstored
  have hsame : s.assetsPath r.project.id = s.assetsPath q.project := by rw [hproject, hstoredId]
  have hready := ready_of_inUse h.dots hid h.store h.apart
  have hfiles := h.store.filesIn_eq_files hfile hid hdot
  have hholds := holds_of_load hload hsame hready hlogs hinstall
  rw [hfiles] at hholds
  have hfound := h'.store.finds_recipe hid hdot hstored hfile.noNul hfile.short
  refine ⟨r, a, hload, ⟨stored, hstored, hproject, hordered⟩, ha, (holds_emit hholds rec).finds.shown, ?_, ?_⟩
  · rw [h'.store.run_listAssets hfound hid hdot]
  · rw [name_of_ofName hformat]
    obtain ⟨w₃, hdir, hpacked⟩ := dir_of_install hinstall
    rcases hpacked with ⟨rfl, rfl, -⟩ | ⟨rfl, d, hpack, rfl⟩
    · exact .inl ⟨rfl, rfl⟩
    · -- What is packed is what there would be without an archive.
      have h₃ := (h.of_logs hlogs).install hid hstored hdir
      have hholds₃ := hfiles ▸ holds_of_load hload hsame hready hlogs hdir
      obtain ⟨rfl, members, hfile, hpacks⟩ := h₃.archived hholds₃ hpack
      have h₄ := (h.of_logs hlogs).install hid hstored hinstall
      have hkept := hasFile_emit (w := { w₃ with disk := d }) hfile (fun hheld => h₄.log _ hheld rfl) rec
      refine .inr ⟨rfl, rfl, members, ?_, hpacks⟩
      rwa [Disk.placeOf_of_cwd (Workspace.logs_emit { w₃ with disk := d } rec).disk.cwd]

end Ongoing

/-- Every export leaves exactly the bundle of its project as it has been saved last, whatever has been exported,
saved and put at the target before. -/
theorem bundle_after_history (h : Reached s target (· ≠ ".") m w) (hdot : q.project ≠ ".")
    (htarget : q.target = some target) (hexport : (exportProject s q).run w = (.ok (.written path issues), w')) :
    ∃ r a, Delivers s m q target path w w' r a :=
  (Ongoing.of_reached h).delivers hdot htarget hexport

/-! ### A file, a recipe and an export -/

/-- No time has passed, no log is set up, and nothing is at the target. -/
structure Calm (w : Workspace) : Prop where
  log : w.log = .none
  now : w.now = .epoch
  held : w.disk.held = none
  free : w.disk.root.get? ["bundle"] = none

theorem Calm.of_confined (h : Calm w) (hlogs : Logs { w with disk := d } w')
    (hc : Confined ⟨.root, ["store"]⟩ w.disk w'.disk) : Calm w' := by
  refine ⟨hlogs.setup.trans h.log, hlogs.now.trans h.now, ?_, ?_⟩
  · refine Option.eq_none_iff_forall_ne_some.2 fun l hl => ?_
    cases (hc.held l hl).symm.trans h.held
  · refine (hc.node ["bundle"] (apart_entries [] (by decide : "store" ≠ "bundle")) fun t ht => ?_).trans h.free
    cases ht.symm.trans h.held

theorem Calm.finds (h : Calm w) {n : Node} (hstore : w.disk.root.get? ["store"] = some n) :
    w.disk.Finds ⟨.root, ["bundle"]⟩ (.absent ["bundle"]) := by
  obtain ⟨es, hes⟩ := Node.isDir_of_get_append (l := []) (by rw [List.nil_append, hstore]; rfl) (List.cons_ne_nil _ _)
  have hlookup : es.lookup "bundle" = none := by
    rw [← Node.get_concat_of_dir hes]
    exact h.free
  exact ⟨by decide, by decide, Disk.walk_absent hes ⟨by decide, by decide⟩ hlookup⟩

theorem isEntryName_p : Store.IsEntryName "p" := ⟨by decide, by decide, by decide, by decide⟩

theorem isEntryName_assets : Store.IsEntryName "assets" := ⟨by decide, by decide, by decide, by decide⟩

/-- A history in which a project gets a file and a project, maybe another one, a recipe. -/
theorem reached_saved (hid : Store.IsEntryName r.project.id) (hr : r.IsStorable) (hnow : r.updatedAt = .epoch) : ∃ w,
    Reached ⟨⟨.root, ["store"]⟩⟩ ⟨.root, ["bundle"]⟩ (· ≠ ".")
      ((({} : Ledger).saveFile "p" "f" ⟨#[1]⟩).saveRecipe r) w ∧
    Store.Built ⟨⟨.root, ["store"]⟩⟩ ["store"] ((({} : Ledger).saveFile "p" "f" ⟨#[1]⟩).saveRecipe r) w ∧ Calm w := by
  have hclean : ∀ {x : String}, Path.IsSingle x → (⟨.root, [x]⟩ : Path).Clean := fun hx y hy =>
    List.mem_singleton.1 hy ▸ hx
  have hfresh : Fresh ⟨⟨.root, ["store"]⟩⟩ ⟨.root, ["bundle"]⟩ (Store.sampleWorkspace []).disk :=
    ⟨⟨Store.wellFormed_sampleWorkspace [], Node.isTree_empty⟩, ⟨hclean ⟨by simp, by decide, by decide⟩, by decide⟩,
      ⟨hclean ⟨by simp, by decide, by decide⟩, by decide⟩, apart_entries [] (by decide), nofun, .inl rfl⟩
  have habsent : (Store.sampleWorkspace []).disk.Finds ⟨.root, ["store"]⟩ (.absent ["store"]) :=
    ⟨by decide, by decide, rfl⟩
  have htied := Store.tied_of_makeDirs (s := ⟨⟨.root, ["store"]⟩⟩) (Disk.run_makeDirs_absent habsent)
    ⟨by decide, by decide, rfl⟩ ⟨by decide, by decide⟩ ⟨by decide, by decide⟩ (Store.wellFormed_sampleWorkspace [])
  -- The file is saved,
  obtain ⟨w₁, hfile, hbuilt₁⟩ :=
    htied.saveAsset isEntryName_p (⟨by decide, by decide, by decide, by decide⟩ : Store.IsEntryName "f") ⟨#[1]⟩
  obtain ⟨hstore, hconfined⟩ := (Ongoing.of_fresh hfresh).store.saveAsset (by decide) hfile
  obtain ⟨-, -, -, d, -, -, hlogs⟩ := Store.saveAsset_eq_ok hfile
  have hcalm := Calm.of_confined ⟨rfl, rfl, rfl, rfl⟩ hlogs hconfined
  -- and then the recipe.
  obtain ⟨w₂, hrecipe, hbuilt₂⟩ := hbuilt₁.tied.save hid hr
  obtain ⟨-, hconfined⟩ := hstore.saveRecipe hid.ne_dot hrecipe
  obtain ⟨-, -, d, -, hlogs⟩ := Store.saveRecipe_eq_ok hrecipe
  have hreached₁ : Reached _ _ (· ≠ ".") _ w₁ := .saveAsset (.start hfresh) isEntryName_p.ne_dot hfile
  have hreached := hreached₁.save hid.ne_dot hrecipe
  have hsame : { r with updatedAt := w₁.now } = r := by rw [hcalm.now, ← hnow]
  rw [hsame] at hreached hbuilt₂
  exact ⟨w₂, hreached, hbuilt₂, hcalm.of_confined hlogs hconfined⟩

theorem bundle_after_save : ∃ m w w' r a,
    Reached ⟨⟨.root, ["store"]⟩⟩ ⟨.root, ["bundle"]⟩ (· ≠ ".") m w ∧ m.assets "p" = [⟨"f", 1⟩] ∧
      (exportProject ⟨⟨.root, ["store"]⟩⟩ { project := "p", target := some ⟨.root, ["bundle"]⟩ }).run w =
        (.ok (.written ⟨.root, ["bundle"]⟩ []), w') ∧
      Delivers ⟨⟨.root, ["store"]⟩⟩ m { project := "p", target := some ⟨.root, ["bundle"]⟩ } ⟨.root, ["bundle"]⟩
        ⟨.root, ["bundle"]⟩ w w' r a := by
  obtain ⟨w, hreached, hbuilt, hcalm⟩ := reached_saved (r := sampleRecipe) isEntryName_p isStorable_sample rfl
  have hload := hbuilt.tied.load_some (r := sampleRecipe) isEntryName_p rfl
  rw [ordered_sample] at hload
  have hassets := hbuilt.holds.assets isEntryName_p (Store.lookup_entries_of_lookup rfl)
  have hfree := hcalm.finds (Disk.get_of_walk hbuilt.holds.root.leads)
  obtain ⟨w', es, hexport, -⟩ := export_sample hcalm.log hcalm.now hload hfree hassets (by decide)
  obtain ⟨r, a, hdelivers⟩ := bundle_after_history hreached (by decide) rfl hexport
  refine ⟨_, w, w', r, a, hreached, ?_, hexport, hdelivers⟩
  change (sortByKey [("f", (⟨#[1]⟩ : ByteArray))]).map _ = _
  rw [sortByKey, List.mergeSort_singleton]
  rfl

theorem Calm.setAt (h : Calm w) (n : Option Node) (t : List String) :
    Calm { w with disk := w.disk.setAt ("store" :: t) n } := by
  have hapart : Apart ("store" :: t) ["bundle"] := (apart_entries [] (by decide : "store" ≠ "bundle")).append t
  exact ⟨h.log, h.now, h.held, (Node.get_set_apart _ _ hapart.above hapart.below).trans h.free⟩

theorem Calm.emit (h : Calm w) (rec : Log.Record) : Calm (w.emit rec) := by
  have hsame : w.emit rec = w := Workspace.emitAll_of_none h.log [rec]
  rw [hsame]
  exact h

/-- The sample recipe for a project named for the directory of files. -/
def namesakeRecipe : Recipe :=
  { sampleRecipe with project := { sampleRecipe.project with id := "assets" } }

theorem isStorable_namesake : namesakeRecipe.IsStorable :=
  ⟨by decide, ⟨isStorable_sample.keyed.1, isStorable_sample.keyed.2⟩, by decide, by decide⟩

/-- A project gets a file and its namesake a recipe. Then the project that is the store itself gets another recipe
as a file. -/
def strayLedger (text : String) : Ledger :=
  ((({} : Ledger).saveFile "p" "f" ⟨#[1]⟩).saveRecipe namesakeRecipe).saveFile "." Save.recipeFile text.toUTF8

theorem reached_stray (text : String) : ∃ w,
    Reached ⟨⟨.root, ["store"]⟩⟩ ⟨.root, ["bundle"]⟩ (fun _ => True) (strayLedger text) w ∧
    Store.Holds ⟨⟨.root, ["store"]⟩⟩ ["store"]
      (put "assets"
        (.dir (put Save.recipeFile (.file 0o600 (.bytes text.toUTF8)) (Record.mk (some namesakeRecipe) []).entries))
        ((({} : Ledger).saveFile "p" "f" ⟨#[1]⟩).saveRecipe namesakeRecipe).entries) w.disk ∧ Calm w := by
  obtain ⟨w, hreached, hbuilt, hcalm⟩ := reached_saved isEntryName_assets isStorable_namesake rfl
  have h := hbuilt.holds
  have hlookup : ((({} : Ledger).saveFile "p" "f" ⟨#[1]⟩).saveRecipe namesakeRecipe).entries.lookup "assets" =
      some (Record.mk (some namesakeRecipe) []).node := Store.lookup_entries_of_lookup rfl
  -- The directory of its files is that of the namesake, and the file is the recipe of that.
  have hpath : Store.assetsPath ⟨⟨.root, ["store"]⟩⟩ "." = Store.entryPath ⟨⟨.root, ["store"]⟩⟩ "assets" := by decide
  have hdir := h.entry_some isEntryName_assets hlookup
  have hfile : w.disk.Finds ((Store.entryPath ⟨⟨.root, ["store"]⟩⟩ "assets").child Save.recipeFile)
      (.found ["store", "assets", Save.recipeFile] (.file 0o600 (.bytes namesakeRecipe.fileText.toUTF8))) :=
    h.recipe_some isEntryName_assets hlookup rfl
  have hrun := Store.run_saveAsset
    (by decide : Store.isName "." = true) (by decide : Store.isName Save.recipeFile = true)
    (hpath ▸ Disk.run_makeDirs_found hdir) (hpath ▸ Disk.run_write_found hfile (.bytes text.toUTF8) 0o644)
  have hkept := (put_self hlookup).symm ▸ h
  have h' := hkept.setBelow (Disk.FileSpot.noDirAt (.inr ⟨_, _, hfile⟩)) (List.cons_ne_nil _ _)
    (Node.set_entry _ Save.recipeFile (.file 0o600 (.bytes text.toUTF8)))
  have hcalm' := hcalm.setAt (some (.file 0o600 (.bytes text.toUTF8))) ["assets", Save.recipeFile]
  exact ⟨_, .saveAsset (hreached.mono fun _ _ => trivial) trivial hrun, h'.emit (w := { w with disk := _ }) _,
    hcalm'.emit _⟩

theorem bundle_after_dot : ∃ m w w' es,
    Reached ⟨⟨.root, ["store"]⟩⟩ ⟨.root, ["bundle"]⟩ (fun _ => True) m w ∧
      ((Store.listAssets ⟨⟨.root, ["store"]⟩⟩ "assets").run w).1 = .ok [] ∧
      (exportProject ⟨⟨.root, ["store"]⟩⟩ { project := "assets", target := some ⟨.root, ["bundle"]⟩ }).run w =
        (.ok (.written ⟨.root, ["bundle"]⟩ []), w') ∧
      w'.disk.Finds ⟨.root, ["bundle"]⟩ (.found ["bundle"] (.dir es)) ∧
      es.lookup Save.assetsDir = some (.dir [("f", .file 0o644 (.bytes ⟨#[1]⟩))]) ∧
      ¬ ∃ r a, Delivers ⟨⟨.root, ["store"]⟩⟩ m { project := "assets", target := some ⟨.root, ["bundle"]⟩ }
        ⟨.root, ["bundle"]⟩ ⟨.root, ["bundle"]⟩ w w' r a := by
  obtain ⟨text, htext⟩ := isStorable_sample.canonical
  obtain ⟨w, hreached, h, hcalm⟩ := reached_stray text
  have hdir := h.entry_some isEntryName_assets (by rw [lookup_put, if_pos rfl])
  have hfile := hdir.entry_some Save.isEntry_recipeFile (Store.room_recipe h.room isEntryName_assets)
    (by rw [lookup_put, if_pos rfl])
  have hnone : w.disk.Finds (Store.assetsPath ⟨⟨.root, ["store"]⟩⟩ "assets")
      (.found ["store", "assets", Save.assetsDir] (.dir [])) :=
    hdir.entry_some Save.isEntry_assetsDir (Store.room_assets h.room isEntryName_assets) rfl
  have hassets := h.assets isEntryName_p (show _ = some (Record.mk none [("f", ⟨#[1]⟩)]).node from rfl)
  -- The recipe that is there now is of the project with the file.
  have hload := Store.run_loadRecipe (s := ⟨⟨.root, ["store"]⟩⟩) (by decide : Store.isName "assets" = true) hfile
    (parse_sample htext _ _)
  have hfree := hcalm.finds (Disk.get_of_walk h.root.leads)
  obtain ⟨w', es, hexport, hfinds, hlookup⟩ := export_sample hcalm.log hcalm.now hload hfree hassets (by decide)
  refine ⟨_, w, w', es, hreached, ?_, hexport, hfinds, hlookup, ?_⟩
  · rw [Store.run_listAssets_found (by decide) hnone nofun, sortByKey, List.mergeSort_nil]
    rfl
  · rintro ⟨r, a, hdelivers⟩
    have hshown := hdelivers.shown
    rw [hfinds.shown] at hshown
    obtain rfl := Node.dir.inj (Except.ok.inj hshown)
    have hempty : (strayLedger text).files "assets" = [] := by
      change (sortByKey []).map _ = []
      rw [sortByKey, List.mergeSort_nil]
      rfl
    rw [hempty] at hlookup
    cases hlookup

end Bundle

end Provision
