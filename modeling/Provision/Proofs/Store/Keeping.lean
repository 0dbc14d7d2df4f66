import Provision.Proofs.Bundle.Aside
import Provision.Proofs.Disk.Making
import Provision.Proofs.Recipe.Rereading
import Provision.Proofs.Store.Escapes
import Provision.Proofs.Store.Stock

/-!
# What a store keeps

Under a ledger there is a directory for each of its projects, and the recipe of each that has one. A disk keeps a
ledger (`Store.Keeps`) when it has the tree of the ledger at the root of the store, or when the root can still be made
and there is nothing to keep. Each operation leaves a disk that keeps a later ledger, however it ends, and
`Ledger.Adds` tells which projects have come by a directory, and which by a recipe.
-/

namespace Provision

open Workspace (Logs)

namespace Ledger

variable {m m' m'' : Ledger} {id x : String} {rec : Record} {r : Recipe} {made saved made' saved' : String → Prop}

/-- There is a directory for the project. -/
def Knows (m : Ledger) (id : String) : Prop :=
  id ∈ m.records.map (·.1)

/-- There is a recipe of the project. -/
def HasRecipe (m : Ledger) (id : String) : Prop :=
  (m.record id).recipe.isSome = true

/-- From one ledger to a later one, directories and recipes have come and none have gone. -/
structure Adds (m m' : Ledger) (made saved : String → Prop) : Prop where
  knows : ∀ id, m'.Knows id ↔ m.Knows id ∨ made id
  hasRecipe : ∀ id, m'.HasRecipe id ↔ m.HasRecipe id ∨ saved id

namespace Adds

theorem of_none (m : Ledger) (hmade : ∀ id, ¬ made id) (hsaved : ∀ id, ¬ saved id) : Adds m m made saved :=
  ⟨fun id => (or_iff_left (hmade id)).symm, fun id => (or_iff_left (hsaved id)).symm⟩

theorem refl (m : Ledger) : Adds m m (fun _ => False) fun _ => False :=
  .of_none m (fun _ => id) fun _ => id

theorem trans (h : Adds m m' made saved) (h' : Adds m' m'' made' saved') :
    Adds m m'' (fun id => made id ∨ made' id) fun id => saved id ∨ saved' id :=
  ⟨fun id => by rw [h'.knows, h.knows, or_assoc], fun id => by rw [h'.hasRecipe, h.hasRecipe, or_assoc]⟩

theorem congr (h : Adds m m' made saved) (hmade : ∀ id, made id ↔ made' id) (hsaved : ∀ id, saved id ↔ saved' id) :
    Adds m m' made' saved' :=
  ⟨fun id => by rw [h.knows, hmade], fun id => by rw [h.hasRecipe, hsaved]⟩

end Adds

theorem knows_setRecord : (m.setRecord id rec).Knows x ↔ m.Knows x ∨ x = id := by
  rw [Knows, setRecord, keys_put]
  split
  · rename_i hmem
    exact (or_iff_left_of_imp fun he => he ▸ hmem).symm
  · rw [List.mem_append, List.mem_singleton]
    rfl

theorem lookup_of_knows (h : m.Knows id) : ∃ rec, m.records.lookup id = some rec :=
  Option.ne_none_iff_exists'.1 fun hnone => lookup_eq_none.1 hnone h

theorem knows_of_hasRecipe (h : m.HasRecipe id) : m.Knows id := by
  by_contra hnot
  rw [HasRecipe, record_of_none (lookup_eq_none.2 hnot)] at h
  cases h

theorem hasRecipe_setRecord :
    (m.setRecord id rec).HasRecipe x ↔ if x = id then rec.recipe.isSome = true else m.HasRecipe x := by
  rw [HasRecipe, record_setRecord]
  split <;> rfl

theorem adds_setRecord (h : rec.recipe = (m.record id).recipe) :
    Adds m (m.setRecord id rec) (· = id) fun _ => False := by
  refine ⟨fun _ => knows_setRecord, fun x => ?_⟩
  rw [hasRecipe_setRecord, or_iff_left not_false]
  split
  · rename_i he
    rw [he, HasRecipe, h]
  · rfl

theorem adds_saveRecipe (m : Ledger) (r : Recipe) : Adds m (m.saveRecipe r) (· = r.project.id) (· = r.project.id) := by
  refine ⟨fun _ => knows_setRecord, fun x => ?_⟩
  rw [saveRecipe, hasRecipe_setRecord]
  split
  · rename_i he
    simp [he]
  · rename_i hne
    simp [hne]

/-- There is one record for a project, under a good name, its files have good names as well, and every recipe can be
read again and carries the id under which it is kept. -/
structure Legible (m : Ledger) : Prop where
  keyed : IsKeyed m.records
  names : ∀ id, m.Knows id → Store.IsEntryName id
  files : ∀ id, (m.record id).Named
  recipes : ∀ id r, (m.record id).recipe = some r → r.project.id = id ∧ r.WellKeyed ∧ ∃ text, r.canonical = .ok text

theorem legible_nil (n : Nat) : Legible ⟨[], n⟩ :=
  ⟨isKeyed_nil, fun _ => nofun, fun _ => Record.named_empty, fun _ _ => nofun⟩

namespace Legible

theorem setRecord (h : m.Legible) (hid : Store.IsEntryName id) (hfiles : rec.Named)
    (hrec : ∀ r, rec.recipe = some r → r.project.id = id ∧ r.WellKeyed ∧ ∃ text, r.canonical = .ok text) :
    (m.setRecord id rec).Legible := by
  refine ⟨isKeyed_put id rec h.keyed, fun x hx => ?_, fun x => ?_, fun x r hr => ?_⟩
  · rcases knows_setRecord.1 hx with hx | rfl
    · exact h.names x hx
    · exact hid
  · rw [record_setRecord]
    split
    · exact hfiles
    · exact h.files x
  · rw [record_setRecord] at hr
    split at hr
    · rename_i he
      exact he ▸ hrec r hr
    · exact h.recipes x r hr

theorem keeps (h : m.Legible) (hid : Store.IsEntryName id) (hfiles : rec.Named)
    (hrec : rec.recipe = (m.record id).recipe) : (m.setRecord id rec).Legible :=
  h.setRecord hid hfiles fun r hr => h.recipes id r (hrec ▸ hr)

theorem saveRecipe (h : m.Legible) {text : String} (hid : Store.IsEntryName r.project.id) (hk : r.WellKeyed)
    (hr : r.canonical = .ok text) : (m.saveRecipe r).Legible :=
  h.setRecord hid ⟨(h.files r.project.id).keyed, (h.files r.project.id).names⟩ fun _ he =>
    Option.some.inj he ▸ ⟨rfl, hk, text, hr⟩

end Legible

end Ledger

theorem Save.cwd_of_run {v : Save} {d d' : Disk} (h : v.run .none d = (.ok (), d')) : d'.cwd = d.cwd := by
  obtain ⟨d₁, text, temp, d₂, d₃, hdirs, -, htemp, hwrite, hmove⟩ := run_ok_cases h
  obtain ⟨-, -, -, -, -, hd₂⟩ := Disk.reserve_of_createTemp htemp
  obtain ⟨l, mode, hput⟩ := Disk.putsFile_of_write hwrite
  obtain ⟨-, -, -, -, -, -, -, hcwd, -⟩ := Disk.rename_eq_ok hmove
  calc d'.cwd
    _ = d₃.cwd := hcwd
    _ = d₂.cwd := by rw [hput.eq, Disk.setAt_cwd]
    _ = d₁.cwd := by rw [hd₂, Disk.setAt_cwd]
    _ = d.cwd := ((Disk.keeps_makeDirs (l := []) _).of_run hdirs).cwd

namespace Store

variable {s : Store} {place : List String} {m m' : Ledger} {d d' d₁ : Disk} {w w' : Workspace} {id filename : String}
  {es : List (String × Node)} {rec : Record} {r : Recipe} {bytes : ByteArray}

theorem isEntryName_of_finds {p : Path} {spot : Disk.Spot} (hname : isName id = true) (hdot : id ≠ ".")
    (h : d.Finds (p.child id) spot) : IsEntryName id := by
  obtain ⟨hs, hd⟩ := single_of_isName hname hdot
  have hleads := h.leads
  rw [Path.names_child p hs] at hleads
  obtain ⟨-, -, -, hplain, -⟩ := Disk.walk_concat hd hleads
  have hnul := h.noNul
  rw [Disk.hasNul_child p hs, Bool.or_eq_false_iff] at hnul
  exact ⟨hname, hdot, hnul.2, hplain.size⟩

theorem not_fileSpot_of_dir {p : Path} {l l' : List String} (h : d.Finds p (.found l (.dir es))) :
    ¬ d.FileSpot p l' := by
  rintro (hf | ⟨mode, c, hf⟩) <;> cases hf.leads.symm.trans h.leads

/-- Nothing is at the root of the store yet, which can be made from a directory that is there. -/
structure Unmade (s : Store) (d : Disk) : Prop where
  missing : d.Missing s.root
  start : (d.root.get? (d.start s.root)).isSome = true
  room : s.root.Room roomBelow
  roomAbsolute : (d.absolute s.root).Room roomBelow
  cwd : ∀ x ∈ d.cwd, Disk.IsPlain x
  held : ∀ l, d.held = some l → ¬ d.placeOf s.root <+: l

theorem Unmade.of_grown (h : s.Unmade d) (hg : Disk.Grown d d') : s.Unmade d' := by
  refine ⟨h.missing.of_grown hg, ?_, h.room, ?_, hg.cwd.symm ▸ h.cwd, fun l hl => ?_⟩
  · rw [hg.start, hg.shape.isSome]
    exact h.start
  · rw [Disk.absolute, hg.start]
    exact h.roomAbsolute
  · rw [Disk.placeOf_of_cwd hg.cwd]
    exact h.held l (hg.held ▸ hl)

theorem Unmade.made (h : s.Unmade d) (hnames : ∀ x ∈ s.root.names, Path.IsEntry x) :
    ∃ d₁, (Disk.makeDirs s.root).run d = (.ok (), d₁) ∧ d₁.cwd = d.cwd ∧ Holds s (d.placeOf s.root) [] d₁ := by
  obtain ⟨d₁, l, hmade, hfinds⟩ := h.missing.exists_makeDirs h.room hnames h.start
  have hkeeps : Disk.Keeps [] d d₁ := (Disk.keeps_makeDirs s.root).of_run hmade
  have hplace : l = d.placeOf s.root := by
    rw [← Disk.placeOf_of_cwd hkeeps.cwd]
    exact Disk.place_eq_follow hfinds.leads
  refine ⟨d₁, hmade, hkeeps.cwd, hplace ▸ hfinds, h.room, ?_, hkeeps.cwd.symm ▸ h.cwd, hkeeps.held.symm ▸ h.held⟩
  rw [Disk.absolute, Disk.start_of_cwd hkeeps.cwd]
  exact h.roomAbsolute

theorem Unmade.not_finds {p : Path} {l more : List String} {n : Node} (h : s.Unmade d)
    (hb : Disk.Below s.root more p) (hmore : more ≠ []) : ¬ d.Finds p (.found l n) := by
  intro hf
  have hleads := hf.leads
  rw [hb.start, hb.names] at hleads
  obtain ⟨l, n, hroot, -⟩ := Disk.walk_split hmore hleads
  exact h.missing.not_finds ⟨h.room.noNul, by have := h.room.short; omega, hroot⟩

theorem Unmade.not_loads (h : s.Unmade w.disk) : (s.loadRecipe id).run w ≠ (.ok r, w') := by
  intro hload
  obtain ⟨hid, l, mode, c, hf, -⟩ := loadRecipe_eq_ok hload
  exact h.not_finds ((below_entryPath s hid).child Save.isEntry_recipeFile.single (by decide)) (by simp) hf

theorem Holds.of_grown (h : Holds s place es d) (hg : Disk.Grown d d') : Holds s place es d' := by
  have hnode := (hg.node place h.held).trans (Disk.get_of_walk h.root.leads)
  refine ⟨⟨h.root.noNul, h.root.short, ?_⟩, h.room, ?_, hg.cwd.symm ▸ h.cwd, hg.held.symm ▸ h.held⟩
  · rw [hg.start]
    exact Disk.walk_keepsDirs hg.shape.keepsDirs h.root.leads hnode
  · rw [Disk.absolute, hg.start]
    exact h.roomAbsolute

/-! ### Keeping a ledger -/

/-- The tree of the ledger is there, or nothing is, and nothing is to be kept. -/
structure Keeps (s : Store) (m : Ledger) (d : Disk) : Prop where
  legible : m.Legible
  names : ∀ x ∈ s.root.names, Path.IsEntry x
  tree : Holds s (d.placeOf s.root) m.entries d ∨ m.records = [] ∧ s.Unmade d

namespace Keeps

theorem of_holds (h : s.Keeps m d) (hl : m'.Legible) (hcwd : d'.cwd = d.cwd)
    (hd : Holds s (d.placeOf s.root) m'.entries d') : s.Keeps m' d' :=
  ⟨hl, h.names, .inl ((Disk.placeOf_of_cwd hcwd s.root).symm ▸ hd)⟩

theorem of_grown (h : s.Keeps m d) (hg : Disk.Grown d d') : s.Keeps m d' := by
  rcases h.tree with hd | ⟨hm, hd⟩
  · exact h.of_holds h.legible hg.cwd (hd.of_grown hg)
  · exact ⟨h.legible, h.names, .inr ⟨hm, hd.of_grown hg⟩⟩

theorem room (h : s.Keeps m d) : s.root.Room roomBelow := by
  rcases h.tree with hd | ⟨-, hd⟩
  · exact hd.room
  · exact hd.room

theorem made (h : s.Keeps m d) :
    ∃ d₁, (Disk.makeDirs s.root).run d = (.ok (), d₁) ∧ d₁.cwd = d.cwd ∧ Holds s (d.placeOf s.root) m.entries d₁ := by
  rcases h.tree with hd | ⟨hm, hd⟩
  · exact ⟨d, Disk.run_makeDirs_found hd.root, rfl, hd⟩
  · rw [Ledger.entries, hm]
    exact hd.made h.names

theorem makeDirs (h : s.Keeps m d) (hid : IsEntryName id) :
    ∃ d₁, (Disk.makeDirs (s.assetsPath id)).run d = (.ok (), d₁) ∧ d₁.cwd = d.cwd ∧
      Holds s (d.placeOf s.root) (put id (m.record id).node m.entries) d₁ := by
  obtain ⟨d₀, hmade, -, hd⟩ := h.made
  obtain ⟨d₁, hdirs, hd₁⟩ := hd.makeDirs hmade hid
  exact ⟨d₁, hdirs, ((Disk.keeps_makeDirs (l := []) _).of_run hdirs).cwd, hd₁⟩

theorem makeDirs_refused (h : s.Keeps m d) (hname : isName id = true) (hdot : id ≠ ".") (hid : ¬ IsEntryName id) :
    ∃ e d₁, (Disk.makeDirs (s.assetsPath id)).run d = (.error e, d₁) ∧ d₁.cwd = d.cwd ∧ s.Keeps m d₁ := by
  obtain ⟨hs, hd⟩ := single_of_isName hname hdot
  cases hnul : (s.assetsPath id).hasNul with
  | true => exact ⟨.nulByte, d, Disk.run_makeDirs_nul hnul, rfl, h⟩
  | false =>
    have hnul' := Path.noNul_of_child Save.isEntry_assetsDir.single hnul
    rw [entryPath, Disk.hasNul_child s.root hs, Bool.or_eq_false_iff] at hnul'
    have hlong : Disk.longestName < id.utf8ByteSize :=
      Nat.lt_of_not_le fun hsize => hid ⟨hname, hdot, hnul'.2, hsize⟩
    obtain ⟨d₀, hmade, hcwd, hd₀⟩ := h.made
    obtain ⟨e, d₁, hrun, rfl | rfl⟩ :=
      Disk.makeDirs_long h.room hmade hs hd hlong Save.isEntry_assetsDir.single hnul
    · exact ⟨e, d₁, hrun, rfl, h⟩
    · exact ⟨e, d₁, hrun, hcwd, h.of_holds h.legible hcwd hd₀⟩

end Keeps

theorem Holds.write {result : Except DiskFault Unit} (h : Holds s place (put id rec.node es) d) (hid : IsEntryName id)
    (hfiles : rec.Named) (hf : isName filename = true)
    (hwrite : (Disk.write ((s.assetsPath id).child filename) (.bytes bytes)).run d = (result, d')) :
    d'.cwd = d.cwd ∧ ∃ rec' : Record, rec'.recipe = rec.recipe ∧ rec'.Named ∧
      Holds s place (put id rec'.node es) d' := by
  rcases result with e | u
  · obtain rfl := Disk.allOrNothing_write _ _ _ _ _ _ hwrite
    exact ⟨rfl, rec, rfl, hfiles, h⟩
  · obtain ⟨l, mode, hput⟩ := Disk.putsFile_of_write hwrite
    have hlookup : (put id rec.node es).lookup id = some rec.node := by rw [lookup_put, if_pos rfl]
    have hassets := h.assets hid hlookup
    have hfile : IsEntryName filename := by
      by_cases hdot : filename = "."
      · rw [hdot, Path.child_dot] at hput
        exact absurd hput.spot (not_fileSpot_of_dir hassets)
      · obtain ⟨spot, hspot, -⟩ := hput.spot.finds
        exact isEntryName_of_finds hf hdot hspot
    obtain ⟨d₂, hsaved, hd₂⟩ := h.saveFile hid hfile bytes
    cases hsaved.symm.trans hwrite
    exact ⟨by rw [hput.eq, Disk.setAt_cwd], { rec with files := put filename bytes rec.files }, rfl,
      hfiles.put hfile rfl, hd₂⟩

/-- What an operation leaves of a store that keeps a ledger, however it ends. Paths begin where they began. -/
structure Leaves (s : Store) (m : Ledger) (made saved : String → Prop) (w w' : Workspace) : Prop where
  cwd : w'.disk.cwd = w.disk.cwd
  tempDir : w'.tempDir = w.tempDir
  keeps : ∃ m', s.Keeps m' w'.disk ∧ m.Adds m' made saved

namespace Leaves

variable {made saved made' saved' : String → Prop} {w'' : Workspace}

theorem of_logs (h : s.Keeps m w.disk) (hlogs : Logs w w') :
    s.Leaves m (fun _ => False) (fun _ => False) w w' :=
  ⟨hlogs.disk.cwd, hlogs.tempDir, m, h.of_grown hlogs.disk, .refl m⟩

theorem of_none (h : s.Keeps m w.disk) (hmade : ∀ id, ¬ made id) (hsaved : ∀ id, ¬ saved id) :
    s.Leaves m made saved w w :=
  ⟨rfl, rfl, m, h, .of_none m hmade hsaved⟩

theorem congr (h : s.Leaves m made saved w w') (hmade : ∀ id, made id ↔ made' id)
    (hsaved : ∀ id, saved id ↔ saved' id) : s.Leaves m made' saved' w w' := by
  obtain ⟨hcwd, htemp, m', h', hadds⟩ := h
  exact ⟨hcwd, htemp, m', h', hadds.congr hmade hsaved⟩

theorem logged (h : s.Leaves m made saved w w') (hlogs : Logs w' w'') : s.Leaves m made saved w w'' := by
  obtain ⟨hcwd, htemp, m', h', hadds⟩ := h
  exact ⟨hlogs.disk.cwd.trans hcwd, hlogs.tempDir.trans htemp, m', h'.of_grown hlogs.disk, hadds⟩

theorem trans (h : s.Leaves m made saved w w')
    (h' : ∀ m', s.Keeps m' w'.disk → s.Leaves m' made' saved' w' w'') :
    s.Leaves m (fun id => made id ∨ made' id) (fun id => saved id ∨ saved' id) w w'' := by
  obtain ⟨hcwd, htemp, m', hkeeps, hadds⟩ := h
  obtain ⟨hcwd', htemp', m'', hkeeps', hadds'⟩ := h' m' hkeeps
  exact ⟨hcwd'.trans hcwd, htemp'.trans htemp, m'', hkeeps', hadds.trans hadds'⟩

end Leaves

theorem saving_eq {now : Timestamp} {text : String} (h : ({ r with updatedAt := now } : Recipe).canonical = .ok text) :
    s.saving r now = ⟨s.entryPath r.project.id, .ok ({ r with updatedAt := now } : Recipe).fileText⟩ := by
  rw [saving, Recipe.fileText, h]
  rfl

namespace Keeps

/-- A save makes the directories of the project if they can be made, and puts the recipe there if that has a text. -/
theorem save (h : s.Keeps m d) (hname : isName r.project.id = true) (hdot : r.project.id ≠ ".") (hk : r.WellKeyed)
    {now : Timestamp} {result : Except Failure Unit} (hrun : (s.saving r now).run .none d = (result, d')) :
    d'.cwd = d.cwd ∧ ∃ m', s.Keeps m' d' ∧ m.Adds m' (fun id => id = r.project.id ∧ IsEntryName id)
      fun id => (id = r.project.id ∧ IsEntryName id) ∧
        ∃ text, ({ r with updatedAt := now } : Recipe).canonical = .ok text := by
  by_cases hid : IsEntryName r.project.id
  · obtain ⟨d₁, hdirs, hcwd, hd₁⟩ := h.makeDirs hid
    have hmade : ∀ id, id = r.project.id ↔ id = r.project.id ∧ IsEntryName id := fun id =>
      (and_iff_left_of_imp fun he => he ▸ hid).symm
    cases htext : ({ r with updatedAt := now } : Recipe).canonical with
    | ok text =>
      obtain ⟨d₂, hsave, hd₂⟩ := hd₁.save hid hdirs { r with updatedAt := now }
      rw [saving_eq htext] at hrun
      cases hsave.symm.trans hrun
      have hcwd' : d'.cwd = d.cwd := Save.cwd_of_run hsave
      have hlegible := h.legible.saveRecipe (r := { r with updatedAt := now }) hid ⟨hk.vars, hk.settings⟩ htext
      refine ⟨hcwd', _, h.of_holds hlegible hcwd' ?_, (Ledger.adds_saveRecipe m _).congr hmade fun id => ?_⟩
      · rw [Ledger.saveRecipe, Ledger.entries_setRecord]
        exact hd₂
      · exact (hmade id).trans (and_iff_left ⟨text, rfl⟩).symm
    | error e =>
      have hunwritten := Save.run_eq_unwritten (v := s.saving r now) hdirs (by rw [saving, htext]; rfl)
      cases hunwritten.symm.trans hrun
      refine ⟨hcwd, _, h.of_holds (h.legible.keeps hid (h.legible.files _) rfl) hcwd ?_,
        (Ledger.adds_setRecord rfl).congr hmade ?_⟩
      · rw [Ledger.entries_setRecord]
        exact hd₁
      · simp
  · obtain ⟨e, d₁, hdirs, hcwd, hd₁⟩ := h.makeDirs_refused hname hdot hid
    cases (Save.run_eq_unmade (v := s.saving r now) hdirs).symm.trans hrun
    have hno : ∀ id, ¬ (id = r.project.id ∧ IsEntryName id) := fun _ hmade => hid (hmade.1 ▸ hmade.2)
    exact ⟨hcwd, m, hd₁, .of_none m hno fun id hsaved => hno id hsaved.1⟩

theorem saveRecipe (h : s.Keeps m w.disk) (hdot : r.project.id ≠ ".") (hk : r.WellKeyed) :
    s.Leaves m (fun id => id = r.project.id ∧ IsEntryName id)
      (fun id => (id = r.project.id ∧ IsEntryName id) ∧
        ∃ text, ({ r with updatedAt := w.now } : Recipe).canonical = .ok text) w ((s.saveRecipe r).run w).2 := by
  cases hrefusal : refusal? r with
  | some fault =>
    have hno : ∀ id, ¬ (id = r.project.id ∧ IsEntryName id) := fun id hmade => by
      rw [refusal_of_isName (hmade.1 ▸ hmade.2.accepted)] at hrefusal
      cases hrefusal
    rw [run_saveRecipe_refused hrefusal]
    exact .of_none h hno fun id hsaved => hno id hsaved.1
  | none =>
    rcases hrun : (s.saving r w.now).run .none w.disk with ⟨result, d⟩
    obtain ⟨hcwd, hkeeps⟩ := h.save (isName_of_refusal hrefusal) hdot hk hrun
    rw [run_saveRecipe_eq hrefusal hrun]
    have hleaves : s.Leaves m (fun id => id = r.project.id ∧ IsEntryName id)
        (fun id => (id = r.project.id ∧ IsEntryName id) ∧
          ∃ text, ({ r with updatedAt := w.now } : Recipe).canonical = .ok text) w { w with disk := d } :=
      ⟨hcwd, rfl, hkeeps⟩
    exact hleaves.logged (Save.logs_logged _ _ _)

theorem createProject (h : s.Keeps m w.disk) (name description : String) (targets : List String) :
    s.Leaves m (· = String.ofList (Text.hex 32 (w.issued + 1))) (· = String.ofList (Text.hex 32 (w.issued + 1))) w
      ((s.createProject name description targets).run w).2 := by
  have hid : (WorkM.freshId : StoreM String).run w =
      (.ok (String.ofList (Text.hex 32 (w.issued + 1))), { w with issued := w.issued + 1 }) := rfl
  have hname := isEntryName_hex (w.issued + 1)
  have hstorable := isStorable_starter ⟨[], w.issued⟩ w.now name description targets
  obtain ⟨text, htext⟩ := (hstorable.dated w.now).canonical
  have hsaved := saveRecipe (w := { w with issued := w.issued + 1 }) h
    (r := Ledger.starter ⟨[], w.issued⟩ w.now name description targets) hname.ne_dot hstorable.keyed
  have hmade : ∀ id, (id = String.ofList (Text.hex 32 (w.issued + 1)) ∧ IsEntryName id) ↔
      id = String.ofList (Text.hex 32 (w.issued + 1)) := fun id => and_iff_left_of_imp fun he => he ▸ hname
  have hleaves := hsaved.congr hmade fun id => (and_iff_left ⟨text, htext⟩).trans (hmade id)
  rw [Store.createProject, run_bind_ok hid, run_bind_ok (WorkM.run_now _)]
  change s.Leaves m _ _ w ((s.saveRecipe (Ledger.starter ⟨[], w.issued⟩ w.now name description targets) >>= _).run
    { w with issued := w.issued + 1 }).2
  rcases hrun : (s.saveRecipe (Ledger.starter ⟨[], w.issued⟩ w.now name description targets)).run
    { w with issued := w.issued + 1 } with ⟨f | stored, w₁⟩
  · rw [hrun] at hleaves
    rw [run_bind_error hrun]
    exact ⟨hleaves.cwd, hleaves.tempDir, hleaves.keeps⟩
  · rw [hrun] at hleaves
    rw [run_bind_ok hrun]
    exact Leaves.logged ⟨hleaves.cwd, hleaves.tempDir, hleaves.keeps⟩ (Workspace.logs_emit _ _)

/-- The directories of a project are made if it can be the name of an entry, and only then. -/
theorem ensure (h : s.Keeps m w.disk) (hdot : id ≠ ".") :
    (IsEntryName id ∧ ∃ d, (s.ensureProjectDir id).run w = (.ok (s.entryPath id), { w with disk := d }) ∧
      d.cwd = w.disk.cwd ∧ Holds s (w.disk.placeOf s.root) (put id (m.record id).node m.entries) d) ∨
    (¬ IsEntryName id ∧ ∃ f d, (s.ensureProjectDir id).run w = (.error f, { w with disk := d }) ∧
      d.cwd = w.disk.cwd ∧ s.Keeps m d) := by
  by_cases hid : isName id = true
  · by_cases hentry : IsEntryName id
    · obtain ⟨d, hdirs, hcwd, hd⟩ := h.makeDirs hentry
      exact .inl ⟨hentry, d, run_ensureProjectDir hid hdirs, hcwd, hd⟩
    · obtain ⟨e, d, hdirs, hcwd, hd⟩ := h.makeDirs_refused hid hdot hentry
      refine .inr ⟨hentry, .disk e, d, ?_, hcwd, hd⟩
      rw [ensureProjectDir, run_bind_ok (run_projectDir s hid w), run_bind_error (WorkM.run_onDisk_error hdirs)]
  · refine .inr ⟨fun hentry => hid hentry.accepted, .store (.invalidName id), w.disk, ?_, rfl, h⟩
    rw [ensureProjectDir, projectDir, bind_assoc, run_bind_error (run_checkName_refused hid w)]

/-- An upload makes the directories of the project if they can be made and the name of the file is accepted. -/
theorem saveAsset (h : s.Keeps m w.disk) (hdot : id ≠ ".") (filename : String) (bytes : ByteArray) :
    s.Leaves m (fun x => (x = id ∧ IsEntryName x) ∧ isName filename = true) (fun _ => False) w
      ((s.saveAsset id filename bytes).run w).2 := by
  by_cases hf : isName filename = true
  case neg =>
    rw [Store.saveAsset, run_bind_error (run_checkName_refused hf w)]
    exact .of_none h (fun _ hmade => hf hmade.2) fun _ => not_false
  rw [Store.saveAsset, run_bind_ok (run_checkName hf w)]
  rcases h.ensure hdot with ⟨hid, d, hensure, hcwd, hd⟩ | ⟨hid, f, d, hensure, hcwd, hd⟩
  · rcases hwrite : (Disk.write ((s.assetsPath id).child filename) (.bytes bytes)).run d with ⟨result, d'⟩
    obtain ⟨hcwd', rec, hrec, hfiles, hd'⟩ := hd.write hid (h.legible.files id) hf hwrite
    have hmade : ∀ x, x = id ↔ (x = id ∧ IsEntryName x) ∧ isName filename = true := fun x =>
      ⟨fun he => ⟨⟨he, he ▸ hid⟩, hf⟩, fun hmade => hmade.1.1⟩
    have hleaves : s.Leaves m (fun x => (x = id ∧ IsEntryName x) ∧ isName filename = true) (fun _ => False) w
        { w with disk := d' } :=
      ⟨hcwd'.trans hcwd, rfl, m.setRecord id rec,
        h.of_holds (h.legible.keeps hid hfiles hrec) (hcwd'.trans hcwd) (Ledger.entries_setRecord m id rec ▸ hd'),
        (Ledger.adds_setRecord hrec).congr hmade fun _ => .rfl⟩
    rw [run_bind_ok hensure]
    cases result with
    | error e =>
      rw [run_bind_error (WorkM.run_onDisk_error hwrite)]
      exact hleaves
    | ok u =>
      rw [run_bind_ok (WorkM.run_onDisk_ok hwrite)]
      exact hleaves.logged (Workspace.logs_emit _ _)
  · rw [run_bind_error hensure]
    exact ⟨hcwd, rfl, m, hd, .of_none m (fun _ hmade => hid (hmade.1.1 ▸ hmade.1.2)) fun _ => not_false⟩

theorem isEntryName_of_saveAsset {path : Path} (h : s.Keeps m w.disk) (hdot : id ≠ ".")
    (hrun : (s.saveAsset id filename bytes).run w = (.ok path, w')) : IsEntryName id ∧ isName filename = true := by
  obtain ⟨hid, hf, d₁, -, hdirs, -⟩ := saveAsset_eq_ok hrun
  refine ⟨?_, hf⟩
  by_contra hentry
  obtain ⟨e, d₂, hrefused, -⟩ := h.makeDirs_refused hid hdot hentry
  cases hdirs.symm.trans hrefused

theorem exportProject {q : Bundle.Request} (h : s.Keeps m w.disk)
    (haside : ∀ r, (s.loadRecipe q.project).run w = (.ok r, w) →
      Bundle.Aside w.disk.cwd (w.disk.placeOf s.root) (Bundle.targetOf q r w.tempDir)) :
    s.Leaves m (fun _ => False) (fun _ => False) w ((Bundle.exportProject s q).run w).2 := by
  rcases hrun : (Bundle.exportProject s q).run w with ⟨res, w'⟩
  rcases Bundle.export_cases hrun with rfl | ⟨r, hload, htemp, hshelters⟩
  · exact .of_none h (fun _ => not_false) fun _ => not_false
  rcases h.tree with hd | ⟨-, hd⟩
  · have hs := hshelters _ _ _ (haside r hload) ⟨rfl, Disk.get_of_walk hd.root.leads, hd.held⟩
    have hplace : w.disk.placeOf s.root = w.disk.start s.root ++ s.root.names :=
      Disk.follow_of_no_dots (Disk.no_dots_of_plain fun x hx => (h.names x hx).plain) _
    refine ⟨hs.cwd, htemp, m, h.of_holds h.legible hs.cwd ⟨⟨hd.root.noNul, hd.root.short, ?_⟩, hd.room, ?_,
      hs.cwd.symm ▸ hd.cwd, hs.held⟩, .refl m⟩
    · rw [Disk.start_of_cwd hs.cwd, hplace]
      exact Disk.walk_place (hplace ▸ hs.node) fun x hx => (h.names x hx).plain
    · rw [Disk.absolute, Disk.start_of_cwd hs.cwd]
      exact hd.roomAbsolute
  · exact absurd hload hd.not_loads

/-! ### Reading -/

theorem parse_reread (hk : r.WellKeyed) {text : String} (h : r.canonical = .ok text) (path : Path) (now : Timestamp) :
    parseRecipe path now r.fileText.toUTF8 = .ok r.reread := by
  obtain ⟨v, hv, hr⟩ := Recipe.read_canonical_reread hk h blanks_newline
  rw [Recipe.fileText, h]
  simp only [parseRecipe, fromUTF8_toUTF8, hv, hr]

theorem holds_of_knows (h : s.Keeps m d) (hid : m.Knows id) : Holds s (d.placeOf s.root) m.entries d := by
  rcases h.tree with hd | ⟨hm, -⟩
  · exact hd
  · rw [Ledger.Knows, hm] at hid
    cases hid

theorem readRecipe (h : s.Keeps m w.disk) (hr : (m.record id).recipe = some r) :
    (Store.readRecipe (s.recipePath id)).run w = (.ok r.reread, w) := by
  obtain ⟨-, hk, text, htext⟩ := h.legible.recipes id r hr
  have hid : m.Knows id := Ledger.knows_of_hasRecipe (by rw [Ledger.HasRecipe, hr]; rfl)
  obtain ⟨rec, hl⟩ := Ledger.lookup_of_knows hid
  rw [Ledger.record_of_lookup hl] at hr
  have hfound := (h.holds_of_knows hid).recipe_some (h.legible.names id hid) (lookup_entries_of_lookup hl) hr
  rw [run_readRecipe hfound, Content.toBytes, parse_reread hk htext]

theorem loadRecipe (h : s.Keeps m w.disk) (hr : (m.record id).recipe = some r) :
    (s.loadRecipe id).run w = (.ok r.reread, w) := by
  have hid : m.Knows id := Ledger.knows_of_hasRecipe (by rw [Ledger.HasRecipe, hr]; rfl)
  rw [Store.loadRecipe, run_bind_ok (run_checkName (h.legible.names id hid).accepted w)]
  exact h.readRecipe hr

theorem hasRecipe_of_load (h : s.Keeps m w.disk) (hdot : id ≠ ".") (hload : (s.loadRecipe id).run w = (.ok r, w')) :
    m.HasRecipe id := by
  rcases h.tree with hd | ⟨-, hd⟩
  · obtain ⟨hname, l, mode, c, hf, -⟩ := loadRecipe_eq_ok hload
    obtain ⟨l', es', hentry, -⟩ := hf.parent Save.isEntry_recipeFile.single (by decide)
    by_contra hnone
    have hmissing := hd.missing_recipe (isEntryName_of_finds hname hdot hentry)
      (Option.not_isSome_iff_eq_none.1 hnone)
    exact hmissing.not_finds hf
  · exact absurd hload hd.not_loads

theorem listAssets_eq_ok {as : List Asset} (h : (s.listAssets id).run w = (.ok as, w')) :
    isName id = true ∧ ∃ l es, w.disk.Finds (s.assetsPath id) (.found l (.dir es)) := by
  rw [Store.listAssets, assetsDir, bind_assoc] at h
  obtain ⟨u, w₁, hname, h⟩ := run_bind_eq_ok.1 h
  obtain ⟨hid, rfl⟩ := checkName_eq_ok hname
  rw [pure_bind] at h
  refine ⟨hid, ?_⟩
  cases hn : (s.assetsPath id).hasNul with
  | true =>
    rw [run_bind_ok (WorkM.run_onDisk_ok (Disk.run_isDir_nul hn))] at h
    cases h
  | false =>
    obtain ⟨isDir, w₂, hrun, h⟩ := run_bind_eq_ok.1 h
    obtain ⟨d, hdir, rfl⟩ := WorkM.onDisk_eq_ok hrun
    cases isDir with
    | false => cases h
    | true => exact Disk.isDir_eq_true hn hdir

theorem listAssets_iff (h : s.Keeps m w.disk) (hdot : id ≠ ".") :
    (∃ as, (s.listAssets id).run w = (.ok as, w)) ↔ m.Knows id := by
  refine ⟨?_, fun hid => ?_⟩
  · rintro ⟨as, hlist⟩
    obtain ⟨hname, l, es, hf⟩ := listAssets_eq_ok hlist
    rcases h.tree with hd | ⟨-, hd⟩
    · obtain ⟨l', es', hentry, -⟩ := hf.parent Save.isEntry_assetsDir.single (by decide)
      by_contra hnone
      have hmissing := hd.missing_assets (isEntryName_of_finds hname hdot hentry) (lookup_eq_none.2 hnone)
      exact hmissing.not_finds hf
    · have hbelow := (below_entryPath s hname).child Save.isEntry_assetsDir.single (by decide)
      exact absurd hf (hd.not_finds hbelow (by simp))
  · obtain ⟨rec, hl⟩ := Ledger.lookup_of_knows hid
    have hname := h.legible.names id hid
    have hd := h.holds_of_knows hid
    have hfound := hd.assets hname (lookup_entries_of_lookup hl)
    have hfiles := Ledger.record_of_lookup hl ▸ h.legible.files id
    exact ⟨_, run_listAssets_found hname.accepted hfound (hd.probes_files hname (lookup_entries_of_lookup hl) hfiles)⟩

theorem projectIn (h : s.Keeps m w.disk) (hmem : (id, rec) ∈ m.records) :
    ∃ w', (Store.projectIn (s.entryPath id)).run w = (.ok (rec.recipe.map Recipe.project), w') ∧ s.Keeps m w'.disk := by
  have hknows : m.Knows id := List.mem_map.2 ⟨(id, rec), hmem, rfl⟩
  have hid := h.legible.names id hknows
  have hl := lookup_of_mem h.legible.keyed hmem
  have hd := h.holds_of_knows hknows
  have hfound := hd.entry_some hid (lookup_entries_of_lookup hl)
  have hrec : (m.record id).recipe = rec.recipe := congrArg Record.recipe (Ledger.record_of_lookup hl)
  cases hr : rec.recipe with
  | some r => exact ⟨w, run_projectIn_found (r := r.reread) hfound (h.readRecipe (hrec.trans hr)), h⟩
  | none =>
    obtain ⟨rec', hrun⟩ := run_projectIn_missing hfound (hd.missing_recipe hid (hrec.trans hr))
    exact ⟨_, hrun, h.of_grown (Workspace.logs_emit w rec').disk⟩

theorem listProjects (h : s.Keeps m w.disk) :
    ∃ w', (s.listProjects).run w = (.ok m.projects, w') ∧ s.Keeps m w'.disk := by
  rcases h.tree with hd | ⟨hm, hd⟩
  · rw [run_listProjects (Disk.run_isDir_found hd.root) (Disk.run_list hd.root), Ledger.entries,
      sortByKey_map Record.node, List.map_map]
    exact run_projectsIn_each (P := fun w => s.Keeps m w.disk)
      (fun x hx _ h => h.projectIn (mem_sortByKey.1 hx)) h
  · refine ⟨w, ?_, h⟩
    rw [Store.listProjects, run_bind_ok (WorkM.run_onDisk_ok (Disk.run_isDir_missing hd.missing)), Ledger.projects, hm,
      sortByKey, List.mergeSort_nil]
    rfl

theorem mem_projects (h : s.Keeps m d) : (∃ p ∈ m.projects, p.id = id) ↔ m.HasRecipe id := by
  rw [Ledger.projects]
  constructor
  · rintro ⟨p, hp, rfl⟩
    obtain ⟨⟨id, rec⟩, hmem, hp⟩ := List.mem_filterMap.1 hp
    obtain ⟨r, hr, rfl⟩ := Option.map_eq_some_iff.1 hp
    have hrec := congrArg Record.recipe (Ledger.record_of_lookup (lookup_of_mem h.legible.keyed (mem_sortByKey.1 hmem)))
    rw [(h.legible.recipes id r (hrec.trans hr)).1, Ledger.HasRecipe, hrec, hr]
    rfl
  · intro hid
    obtain ⟨r, hr⟩ := Option.isSome_iff_exists.1 hid
    obtain ⟨rec, hl⟩ := Ledger.lookup_of_knows (Ledger.knows_of_hasRecipe hid)
    have hrec := congrArg Record.recipe (Ledger.record_of_lookup hl)
    refine ⟨r.project, List.mem_filterMap.2 ⟨(id, rec), mem_sortByKey.2 (mem_of_lookup hl), ?_⟩,
      (h.legible.recipes id r hr).1⟩
    change rec.recipe.map Recipe.project = some r.project
    rw [← hrec, hr]
    rfl

theorem mem_entriesAt (h : s.Keeps m d) : id ∈ (d.entriesAt s.root).map (·.1) ↔ m.Knows id := by
  rcases h.tree with hd | ⟨hm, hd⟩
  · rw [Disk.entriesAt, hd.root.shown, Ledger.Knows]
    change id ∈ m.entries.map (·.1) ↔ _
    rw [Ledger.entries, List.map_map]
    rfl
  · have hnone : d.entriesAt s.root = [] := by
      rw [Disk.entriesAt]
      cases hs : d.shown s.root with
      | error e => rfl
      | ok n =>
        obtain ⟨l, hf⟩ := Disk.finds_of_shown hd.room.noNul hs
        exact absurd hf hd.missing.not_finds
    rw [hnone, Ledger.Knows, hm]
    rfl

end Keeps

end Store

end Provision
