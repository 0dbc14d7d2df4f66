import Provision.Proofs.Bundle.Filling
import Provision.Proofs.Recipe.Identity
import Provision.Proofs.Store.Succeeding
import Provision.Proofs.Store.Tree

/-!
# What is in store

Calls that have succeeded leave on the disk what a ledger keeps of them (`Store.Stocked`), whatever the recipes
are and wherever the calls have come from. This is told place by place, so nothing else that is done on the disk
counts for it as long as the root of the store stays as it is (`Stocked.of_root`).
-/

namespace Provision

open Disk (Alters Confined)
open Workspace (Logs)

namespace Ledger

variable {m : Ledger} {id : String} {r : Recipe}

theorem lookup_setRecord (m : Ledger) (id id' : String) (rec : Record) :
    (m.setRecord id rec).records.lookup id' = if id' = id then some rec else m.records.lookup id' :=
  lookup_put id id' rec m.records

theorem record_setRecord (m : Ledger) (id id' : String) (rec : Record) :
    (m.setRecord id rec).record id' = if id' = id then rec else m.record id' := by
  rw [record, lookup_setRecord]
  split <;> rfl

/-- There is one file of a name, and every recipe has a text and carries the id under which it is kept. -/
structure Filed (m : Ledger) : Prop where
  files : ∀ id, IsKeyed (m.record id).files
  recipes : ∀ id r, (m.record id).recipe = some r → r.project.id = id ∧ ∃ text, r.canonical = .ok text

theorem filed_nil (n : Nat) : Filed ⟨[], n⟩ :=
  ⟨fun _ => isKeyed_nil, nofun⟩

theorem Filed.saveRecipe (h : m.Filed) {text : String} (hr : r.canonical = .ok text) : (m.saveRecipe r).Filed := by
  refine ⟨fun id => ?_, fun id r' hr' => ?_⟩
  · rw [Ledger.saveRecipe, record_setRecord]
    split
    · exact h.files r.project.id
    · exact h.files id
  · rw [Ledger.saveRecipe, record_setRecord] at hr'
    split at hr'
    · rename_i hid
      cases hr'
      exact ⟨hid.symm, text, hr⟩
    · exact h.recipes id r' hr'

theorem Filed.saveFile (h : m.Filed) (id filename : String) (bytes : ByteArray) :
    (m.saveFile id filename bytes).Filed := by
  refine ⟨fun id' => ?_, fun id' r hr => ?_⟩
  · rw [Ledger.saveFile, record_setRecord]
    split
    · exact isKeyed_put filename bytes (h.files id)
    · exact h.files id'
  · rw [Ledger.saveFile, record_setRecord] at hr
    split at hr
    · rename_i hid
      exact hid ▸ h.recipes id r hr
    · exact h.recipes id' r hr

/-- The files of a project, in the order of their names. -/
def files (m : Ledger) (id : String) : List (String × Node) :=
  (sortByKey (m.record id).files).map fun (name, bytes) => (name, .file 0o644 (.bytes bytes))

theorem fileEntries_files (m : Ledger) (id : String) : Store.fileEntries (m.files id) = m.files id := by
  refine List.filter_eq_self.2 fun e he => ?_
  obtain ⟨f, -, rfl⟩ := List.mem_map.1 he
  rfl

theorem name_of_mem_files {x : String × Node} (h : x ∈ m.files id) : x.1 ∈ (m.record id).files.map (·.1) := by
  obtain ⟨f, hf, rfl⟩ := List.mem_map.1 h
  exact List.mem_map_of_mem (mem_sortByKey.1 hf)

/-- What is told of the files of a project. -/
def assets (m : Ledger) (id : String) : List Store.Asset :=
  (sortByKey (m.record id).files).map fun (name, bytes) => ⟨name, bytes.size⟩

end Ledger

namespace Store

variable {s : Store} {m : Ledger} {d d' : Disk} {id filename : String} {r stored : Recipe} {w w' : Workspace}
  {path : Path} {bytes : ByteArray}

/-- Below the root of the store there are the recipes and the files of the ledger, in their places. The system takes
the paths of the files. -/
structure Stocked (s : Store) (m : Ledger) (d : Disk) : Prop where
  filed : m.Filed
  room : ∀ id, ∀ x ∈ (m.record id).files.map (·.1), ((s.assetsPath id).child x).Room 0
  recipe : ∀ id, d.root.get? (d.placeOf s.root ++ [id, Save.recipeFile]) =
    (m.record id).recipe.map fun r => .file 0o600 (.bytes r.fileText.toUTF8)
  file : ∀ id name, d.root.get? (d.placeOf s.root ++ [id, Save.assetsDir, name]) =
    ((m.record id).files.lookup name).map fun b => .file 0o644 (.bytes b)
  assets : ∀ id rec, m.records.lookup id = some rec →
    ∃ es, d.root.get? (d.placeOf s.root ++ [id, Save.assetsDir]) = some (.dir es)

theorem stocked_empty
    (h : d.root.get? (d.placeOf s.root) = none ∨ d.root.get? (d.placeOf s.root) = some (.dir [])) (n : Nat) :
    s.Stocked ⟨[], n⟩ d := by
  have hnone : ∀ id t, d.root.get? (d.placeOf s.root ++ id :: t) = none := by
    intro id t
    rw [Node.get_append]
    rcases h with h | h <;> rw [h] <;> rfl
  exact ⟨Ledger.filed_nil n, nofun, fun id => hnone id _, fun id _ => hnone id _, nofun⟩

namespace Stocked

theorem of_root (h : s.Stocked m d) (hcwd : d'.cwd = d.cwd)
    (hroot : d'.root.get? (d.placeOf s.root) = d.root.get? (d.placeOf s.root)) : s.Stocked m d' := by
  have hsame : ∀ t, d'.root.get? (d.placeOf s.root ++ t) = d.root.get? (d.placeOf s.root ++ t) := by
    intro t
    rw [Node.get_append, hroot, ← Node.get_append]
  obtain ⟨hfiled, hroom, hrecipe, hfile, hassets⟩ := h
  simp only [← hsame] at hrecipe hfile hassets
  refine ⟨hfiled, hroom, ?_, ?_, ?_⟩ <;> rw [Disk.placeOf_of_cwd hcwd]
  · exact hrecipe
  · exact hfile
  · exact hassets

/-- Another record is kept for one project, and what there is of the others has not changed. -/
theorem setRecord {C : List String → Prop} {rec : Record} (h : s.Stocked m d) (hfiled : (m.setRecord id rec).Filed)
    (hroom : ∀ x ∈ rec.files.map (·.1), ((s.assetsPath id).child x).Room 0) (ha : Alters C d d')
    (hC : ∀ l, C l → ∃ t, l <+: d.placeOf s.root ++ id :: t)
    (hrecipe : d'.root.get? (d.placeOf s.root ++ [id, Save.recipeFile]) =
      rec.recipe.map fun r => .file 0o600 (.bytes r.fileText.toUTF8))
    (hfile : ∀ name, d'.root.get? (d.placeOf s.root ++ [id, Save.assetsDir, name]) =
      (rec.files.lookup name).map fun b => .file 0o644 (.bytes b))
    (hassets : ∃ es, d'.root.get? (d.placeOf s.root ++ [id, Save.assetsDir]) = some (.dir es)) :
    s.Stocked (m.setRecord id rec) d' := by
  have hother : ∀ id' t, id' ≠ id →
      d'.root.get? (d.placeOf s.root ++ id' :: t) = d.root.get? (d.placeOf s.root ++ id' :: t) := by
    intro id' t hne
    refine ha.node _ fun l hl hp => hne ?_
    obtain ⟨u, hu⟩ := hC l hl
    have hp := (List.prefix_append_right_inj _).1 (hp.trans hu)
    exact (List.cons_prefix_cons.1 hp).1
  refine ⟨hfiled, fun id' => ?_, ?_, ?_, ?_⟩ <;> try rw [Disk.placeOf_of_cwd ha.cwd]
  · rw [Ledger.record_setRecord]
    split
    · rename_i he
      exact he ▸ hroom
    · exact h.room id'
  · intro id'
    rw [Ledger.record_setRecord]
    split
    · rename_i he
      rw [he, hrecipe]
    · rename_i hne
      rw [hother id' _ hne, h.recipe]
  · intro id' name
    rw [Ledger.record_setRecord]
    split
    · rename_i he
      rw [he, hfile]
    · rename_i hne
      rw [hother id' _ hne, h.file]
  · intro id' rec' hrec'
    rw [Ledger.lookup_setRecord] at hrec'
    split at hrec'
    · rename_i he
      exact he ▸ hassets
    · obtain ⟨es, hes⟩ := h.assets id' rec' hrec'
      exact ha.dirs _ es hes

end Stocked

theorem placeOf_entry (s : Store) (d : Disk) (hid : isName id = true) (hdot : id ≠ ".") :
    d.placeOf (s.entryPath id) = d.placeOf s.root ++ [id] := by
  rw [placeOf_entryPath s d hid, entryNames, if_neg hdot]

theorem placeOf_assets (s : Store) (d : Disk) (hid : isName id = true) (hdot : id ≠ ".") :
    d.placeOf (s.assetsPath id) = d.placeOf s.root ++ [id, Save.assetsDir] := by
  rw [placeOf_assetsPath, placeOf_entry s d hid hdot, List.append_assoc]
  rfl

theorem Stocked.save {v : Save} {text : String} (h : s.Stocked m d) (hid : isName r.project.id = true)
    (hdot : r.project.id ≠ ".") (hv : v.dir = s.entryPath r.project.id) (hr : r.canonical = .ok text)
    (hdone : v.Done (text ++ "\n") d d') : s.Stocked (m.saveRecipe r) d' := by
  obtain ⟨name, -, halters⟩ := hdone.altered
  have hplace : d.placeOf v.dir = d.placeOf s.root ++ [r.project.id] := hv ▸ placeOf_entry s d hid hdot
  refine h.setRecord (h.filed.saveRecipe hr) (h.room r.project.id) halters (fun l hl => ?_) ?_ (fun f => ?_) ?_
  · obtain ⟨x, -, hp⟩ := hl
    rw [hplace, List.append_assoc] at hp
    exact ⟨[x], hp⟩
  · have hrecipe := hdone.recipe
    rw [hplace, List.append_assoc] at hrecipe
    rw [Option.map_some, Recipe.fileText, hr]
    exact hrecipe
  · -- The files are further down than anything that has changed.
    rw [halters.node _ fun l hl hp => ?_, h.file]
    obtain ⟨x, -, hx⟩ := hl
    have hlength := (hp.trans hx).length_le
    rw [hplace] at hlength
    simp only [List.length_append, List.length_cons, List.length_nil] at hlength
    omega
  · obtain ⟨place, es, hleads⟩ := hdone.leads
    have hassets : place = d.placeOf s.root ++ [r.project.id, Save.assetsDir] := by
      rw [← placeOf_assets s d hid hdot, assetsPath, ← hv, ← Disk.placeOf_of_cwd hdone.stays.cwd]
      exact Disk.place_eq_follow hleads
    exact ⟨es, hassets ▸ Disk.get_of_walk hleads⟩

theorem putsFile_of_saveFile {d₁ : Disk} (hid : isName id = true) (hdot : id ≠ ".") (hf : isName filename = true)
    (hsettled : s.Settled d) (hdirs : (Disk.makeDirs (s.assetsPath id)).run d = (.ok (), d₁))
    (hwrite : (Disk.write ((s.assetsPath id).child filename) (.bytes bytes)).run d₁ = (.ok (), d')) :
    Alters (fun l => l <+: d.placeOf s.root ++ [id, Save.assetsDir]) d d₁ ∧
      (∃ es, d₁.root.get? (d.placeOf s.root ++ [id, Save.assetsDir]) = some (.dir es)) ∧
      ∃ mode, Disk.PutsFile ((s.assetsPath id).child filename) (d.placeOf s.root ++ [id, Save.assetsDir, filename]) mode
        (.bytes bytes) d₁ d' ∧ (mode = 0o644 ∨
          ∃ c, d₁.root.get? (d.placeOf s.root ++ [id, Save.assetsDir, filename]) = some (.file mode c)) := by
  have hplace := placeOf_assets s d hid hdot
  have halters := hsettled.alters_makeDirs hid
  rw [hdirs, hplace] at halters
  obtain ⟨l, es, hfinds⟩ := Disk.finds_of_makeDirs hdirs
  obtain rfl : l = d.placeOf s.root ++ [id, Save.assetsDir] :=
    (Disk.place_eq_follow hfinds.leads).trans ((Disk.placeOf_of_cwd halters.cwd _).trans hplace)
  -- A single dot would name the directory.
  have hname : filename ≠ "." := by
    rintro rfl
    rw [Path.child_dot] at hwrite
    rcases Disk.write_eq_ok hwrite with ⟨place, mode, c, hl, -⟩ | ⟨place, hl, -⟩
    · cases hl.symm.trans hfinds.locate
    · cases hl.symm.trans hfinds.locate
  obtain ⟨hs, hup⟩ := single_of_isName hf hname
  obtain ⟨mode, hput, hmode⟩ := hfinds.putsFile_of_write hs hup hwrite
  rw [List.append_assoc, List.cons_append, List.singleton_append] at hput hmode
  exact ⟨halters.mono fun l hl => hl.2, ⟨es, Disk.get_of_walk hfinds.leads⟩, mode, hput, hmode⟩

theorem Stocked.saveFile {d₁ : Disk} (h : s.Stocked m d) (hid : isName id = true) (hdot : id ≠ ".")
    (hf : isName filename = true) (hsettled : s.Settled d)
    (hdirs : (Disk.makeDirs (s.assetsPath id)).run d = (.ok (), d₁))
    (hwrite : (Disk.write ((s.assetsPath id).child filename) (.bytes bytes)).run d₁ = (.ok (), d')) :
    s.Stocked (m.saveFile id filename bytes) d' ∧
      Alters (fun l => l <+: d.placeOf s.root ++ [id, Save.assetsDir, filename]) d d' := by
  obtain ⟨halters, ⟨es, hes⟩, mode, hput, hmode⟩ := putsFile_of_saveFile hid hdot hf hsettled hdirs hwrite
  have hsame : ∀ t, ¬ t <+: [id, Save.assetsDir] →
      d₁.root.get? (d.placeOf s.root ++ t) = d.root.get? (d.placeOf s.root ++ t) := by
    intro t ht
    refine halters.node _ fun l hl hp => ht ?_
    exact (List.prefix_append_right_inj _).1 (hp.trans hl)
  -- The file has the mode of new files, as it had before if it was there.
  obtain rfl : mode = 0o644 := by
    rcases hmode with rfl | ⟨c, hfile⟩
    · rfl
    · rw [hsame _ (by simp), h.file] at hfile
      obtain ⟨b, -, he⟩ := Option.map_eq_some_iff.1 hfile
      cases he
      rfl
  have halters' : Alters (fun l => l = d.placeOf s.root ++ [id, Save.assetsDir, filename]) d₁ d' :=
    hput.eq ▸ .setAt halters.keyed hput.spot.noDirAt (Node.isLeaf_file 0o644 (.bytes bytes)) rfl
  have hkept : ∀ t, ¬ t <+: [id, Save.assetsDir, filename] →
      d'.root.get? (d.placeOf s.root ++ t) = d.root.get? (d.placeOf s.root ++ t) := by
    intro t ht
    rw [halters'.node _ fun l hl hp => ht ((List.prefix_append_right_inj _).1 (hl ▸ hp)),
      hsame t fun hp => ht (hp.trans ⟨[filename], rfl⟩)]
  have hall : Alters (fun l => l <+: d.placeOf s.root ++ [id, Save.assetsDir, filename]) d d' := by
    refine (halters.mono fun l hl => hl.trans ⟨[filename], by simp⟩).trans (halters'.mono fun l hl => ?_)
    exact hl ▸ List.prefix_refl _
  have hroom : ∀ x ∈ (put filename bytes (m.record id).files).map (·.1), ((s.assetsPath id).child x).Room 0 := by
    intro x hx
    obtain ⟨y, hy, rfl⟩ := List.mem_map.1 hx
    rcases mem_put hy with rfl | hy
    · obtain ⟨spot, hfinds, -⟩ := hput.spot.finds
      exact ⟨hfinds.noNul, hfinds.short⟩
    · exact h.room id _ (List.mem_map_of_mem hy)
  refine ⟨h.setRecord (h.filed.saveFile id filename bytes) hroom hall (fun l hl => ⟨_, hl⟩) ?_ (fun name => ?_) ?_,
    hall⟩
  · rw [hkept _ (by simp [Save.recipeFile, Save.assetsDir]), h.recipe]
  · rw [lookup_put]
    split
    · rename_i hn
      rw [hn, hput.eq]
      exact hput.spot.get_setAt _
    · rename_i hn
      rw [hkept _ (by simpa using hn), h.file]
  · exact halters'.dirs _ es hes

/-! ### Calls -/

/-- A store whose path has no names that lead up, with what the ledger says in it. No open file is in it. -/
structure InUse (s : Store) (m : Ledger) (d : Disk) : Prop where
  clean : s.root.Clean
  dots : ".." ∉ s.root.names
  sane : d.Sane
  held : ∀ l, d.held = some l → ¬ d.placeOf s.root <+: l
  stocked : s.Stocked m d

namespace InUse

variable {m' : Ledger}

theorem settled (h : s.InUse m d) : s.Settled d := ⟨h.sane.wellFormed.cwd, h.sane.tree.keyed, .inr h.dots⟩

theorem root_dir (h : s.InUse m d) (hr : (m.record id).recipe = some r) :
    ∃ es, d.root.get? (d.placeOf s.root) = some (.dir es) := by
  have hrecipe := h.stocked.recipe id
  rw [hr] at hrecipe
  exact Node.isDir_of_get_append (by rw [hrecipe]; rfl) (List.cons_ne_nil id _)

theorem of_stays (h : s.InUse m d) (hs : d.Stays d') (hstocked : s.Stocked m' d') : s.InUse m' d' := by
  refine ⟨h.clean, h.dots, hs.sane h.sane, fun l hl => ?_, hstocked⟩
  rw [Disk.placeOf_of_cwd hs.cwd]
  exact h.held l (hs.held l hl)

theorem of_logs (h : s.InUse m w.disk) (hlogs : Logs w w') : s.InUse m w'.disk :=
  h.of_stays (.of_grown hlogs.disk) (h.stocked.of_root hlogs.disk.cwd (hlogs.disk.node _ h.held))

theorem saveRecipe (h : s.InUse m w.disk) (hdot : r.project.id ≠ ".")
    (hrun : (s.saveRecipe r).run w = (.ok stored, w')) :
    s.InUse (m.saveRecipe stored) w'.disk ∧ Confined s.root w.disk w'.disk := by
  obtain ⟨hid, rfl, d, hsave, hlogs⟩ := saveRecipe_eq_ok hrun
  obtain ⟨text, hdone⟩ := Save.done_of_run (v := s.saving r w.now) rfl hid h.clean h.settled h.sane hsave
  cases hr : ({ r with updatedAt := w.now } : Recipe).canonical with
  | error e =>
    have hwritten := hdone.written
    rw [saving, hr] at hwritten
    cases hwritten
  | ok text' =>
    have hwritten := hdone.written
    rw [saving, hr] at hwritten
    cases hwritten
    have hstocked := h.stocked.save (r := { r with updatedAt := w.now }) hid hdot rfl hr hdone
    have h' : s.InUse (m.saveRecipe { r with updatedAt := w.now }) d := h.of_stays hdone.stays hstocked
    obtain ⟨name, -, halters⟩ := hdone.altered
    have hconfined : Confined s.root w.disk d := by
      refine .of_alters hdone.stays halters ?_
      rintro l ⟨x, -, hl⟩
      rw [saving, placeOf_entry s w.disk hid hdot, List.append_assoc] at hl
      exact ⟨_, hl⟩
    exact ⟨h'.of_logs (w := { w with disk := d }) hlogs, hconfined.trans (.of_grown s.root hlogs.disk)⟩

theorem createProject {name description : String} {targets : List String} (h : s.InUse m w.disk)
    (hrun : (s.createProject name description targets).run w = (.ok stored, w')) :
    s.InUse (m.saveRecipe stored) w'.disk ∧ Confined s.root w.disk w'.disk := by
  obtain ⟨r, n, w₁, w₂, hsave, hid, hdisk, -, hlogs⟩ := createProject_eq_ok hrun
  rw [← hdisk] at h ⊢
  obtain ⟨h', hconfined⟩ := h.saveRecipe (hid ▸ (isEntryName_hex n).ne_dot) hsave
  exact ⟨h'.of_logs hlogs, hconfined.trans (.of_grown s.root hlogs.disk)⟩

theorem saveAsset (h : s.InUse m w.disk) (hdot : id ≠ ".")
    (hrun : (s.saveAsset id filename bytes).run w = (.ok path, w')) :
    s.InUse (m.saveFile id filename bytes) w'.disk ∧ Confined s.root w.disk w'.disk := by
  obtain ⟨hid, hf, d₁, d₂, hdirs, hwrite, hlogs⟩ := saveAsset_eq_ok hrun
  have hclean := (h.clean.child id).child Save.assetsDir
  have hmade := (Disk.keeps_makeDirs (l := []) (s.assetsPath id)).of_run hdirs
  obtain ⟨place, mode, hput⟩ := Disk.putsFile_of_write hwrite
  have hstays : w.disk.Stays d₂ := by
    refine ⟨?_, fun l hl => ?_, fun hd => hput.sane (hclean.child _).endsClean ?_⟩
    · rw [hput.eq, Disk.setAt_cwd, hmade.cwd]
    · rwa [hput.eq, Disk.setAt_held, hmade.held] at hl
    · exact (Disk.sane_makeDirs hclean).of_run hdirs hd
  obtain ⟨hstocked, halters⟩ := h.stocked.saveFile hid hdot hf h.settled hdirs hwrite
  have hconfined : Confined s.root w.disk d₂ := .of_alters hstays halters fun l hl => ⟨_, hl⟩
  have h' := h.of_stays hstays hstocked
  exact ⟨h'.of_logs (w := { w with disk := d₂ }) hlogs, hconfined.trans (.of_grown s.root hlogs.disk)⟩

section

variable {l : List String} {mode : Nat} {c : Content} (h : s.InUse m d)
  (hf : d.Finds (s.recipePath id) (.found l (.file mode c)))

include h hf

theorem recipe_of_finds (hid : isName id = true) (hdot : id ≠ ".") :
    ∃ r, (m.record id).recipe = some r ∧ c = .bytes r.fileText.toUTF8 := by
  have hplace : l = d.placeOf s.root ++ [id, Save.recipeFile] := by
    refine (Disk.place_eq_follow hf.leads).trans ?_
    change d.placeOf (s.recipePath id) = _
    rw [placeOf_recipePath, placeOf_entry s d hid hdot, List.append_assoc]
    rfl
  have hget := Disk.get_of_walk hf.leads
  rw [hplace, h.stocked.recipe] at hget
  obtain ⟨r, hr, he⟩ := Option.map_eq_some_iff.1 hget
  cases he
  exact ⟨r, hr, rfl⟩

theorem finds_assets (hid : isName id = true) (hdot : id ≠ ".") :
    ∃ es, d.Finds (s.assetsPath id) (.found (d.placeOf s.root ++ [id, Save.assetsDir]) (.dir es)) ∧
      sortByKey es = m.files id := by
  obtain ⟨r, hr, -⟩ := h.recipe_of_finds hf hid hdot
  have hlookup : ∃ rec, m.records.lookup id = some rec := by
    refine Option.isSome_iff_exists.1 (Option.isSome_iff_ne_none.2 fun hnone => ?_)
    rw [Ledger.record_of_none hnone] at hr
    cases hr
  obtain ⟨rec, hrec⟩ := hlookup
  obtain ⟨es, hes⟩ := h.stocked.assets id rec hrec
  have hbelow := (below_entryPath s hid).child Save.isEntry_assetsDir.single (by decide)
  have hdots : ".." ∉ (s.assetsPath id).names := by
    rw [assetsPath, hbelow.names, List.mem_append, not_or]
    exact ⟨h.dots, hbelow.down⟩
  have hnul : (s.assetsPath id).hasNul = false :=
    Path.noNul_child Save.isEntry_assetsDir (Path.noNul_of_child Save.isEntry_recipeFile.single hf.noNul)
  have hshort : (s.assetsPath id).text.utf8ByteSize < Disk.pathLimit :=
    Nat.lt_of_le_of_lt (Path.text_child_le _ Save.isEntry_assetsDir.single Save.isEntry_recipeFile.single (by decide))
      hf.short
  have hplace := placeOf_assets s d hid hdot
  refine ⟨es, hplace ▸ h.sane.finds hdots hnul hshort (hplace.symm ▸ hes), ?_⟩
  -- The directory has the files of the ledger, each under its name.
  have hfiles := h.stocked.filed.files id
  have hperm : es.Perm ((m.record id).files.map fun (name, bytes) => (name, Node.file 0o644 (.bytes bytes))) := by
    have hkeyed := (isKeyed_map fun bytes : ByteArray => Node.file 0o644 (.bytes bytes)).2 hfiles
    refine perm_of_lookup_eq (h.sane.tree _ es hes).1 hkeyed fun name => ?_
    rw [lookup_map fun bytes : ByteArray => Node.file 0o644 (.bytes bytes), ← h.stocked.file,
      ← Node.get_concat_of_dir hes, List.append_assoc]
    rfl
  rw [Ledger.files, sortByKey_eq_of_perm hperm (h.sane.tree _ es hes).1,
    sortByKey_map fun bytes : ByteArray => Node.file 0o644 (.bytes bytes)]

theorem filesIn_eq_files (hid : isName id = true) (hdot : id ≠ ".") : filesIn d (s.assetsPath id) = m.files id := by
  obtain ⟨es, hfound, hes⟩ := h.finds_assets hf hid hdot
  rw [filesIn, hfound.shown]
  change fileEntries (sortByKey es) = _
  rw [hes, m.fileEntries_files]

end

theorem run_listAssets {l : List String} {mode : Nat} {c : Content} (h : s.InUse m w.disk)
    (hf : w.disk.Finds (s.recipePath id) (.found l (.file mode c))) (hid : isName id = true) (hdot : id ≠ ".") :
    (s.listAssets id).run w = (.ok (m.assets id), w) := by
  obtain ⟨es, hfound, hes⟩ := h.finds_assets hf hid hdot
  have hprobe : ∀ x ∈ es, (Disk.probe ((s.assetsPath id).entry x.1)).run w.disk = (.ok (some x.2), w.disk) := by
    intro x hx
    obtain ⟨hkeyed, hentries⟩ := h.sane.tree _ es (Disk.get_of_walk hfound.leads)
    have hname := Ledger.name_of_mem_files (hes ▸ mem_sortByKey.2 hx)
    exact Disk.run_probe_entry hfound (hentries _ (List.mem_map_of_mem hx)) (h.stocked.room id _ hname)
      (lookup_of_mem hkeyed hx)
  rw [run_listAssets_found hid hfound hprobe, hes, m.fileEntries_files, Ledger.files, List.map_map]
  rfl

theorem project_of_parse {text : String} {now : Timestamp} (h : stored.canonical = .ok text)
    (hparse : parseRecipe path now (text ++ "\n").toUTF8 = .ok r) : r.project = stored.project := by
  simp only [parseRecipe, fromUTF8_toUTF8] at hparse
  split at hparse
  · cases hparse
  · cases hparse
  · cases hparse
  · rename_i v hread
    split at hparse
    · rename_i hr
      cases hparse
      exact Recipe.project_of_read h blanks_newline hread hr
    · cases hparse

/-- A recipe that is loaded is of the project that was saved, and it is the one that was saved if that can be
stored, up to the order of its settings. -/
theorem recipe_of_load (h : s.InUse m w.disk) (hdot : id ≠ ".") (hload : (s.loadRecipe id).run w = (.ok r, w')) :
    ∃ stored, (m.record id).recipe = some stored ∧ r.project = stored.project ∧
      (stored.IsStorable → r = stored.ordered) := by
  obtain ⟨hid, l, mode, c, hf, hparse⟩ := loadRecipe_eq_ok hload
  obtain ⟨stored, hstored, rfl⟩ := h.recipe_of_finds hf hid hdot
  obtain ⟨-, text, htext⟩ := h.stocked.filed.recipes id stored hstored
  refine ⟨stored, hstored, ?_, fun hs => ?_⟩
  · rw [Content.toBytes, Recipe.fileText, htext] at hparse
    exact project_of_parse htext hparse
  · rw [Content.toBytes, Recipe.fileText, htext, parse_canonical hs.exact hs.keyed htext blanks_newline] at hparse
    cases hparse
    rfl

end InUse

end Store

end Provision
