import Provision.Proofs.Recipe.Decoding
import Provision.Proofs.Workspace
import Provision.Store.Basic

/-!
# Reading stored recipes

Reading changes nothing. A file with the canonical text of a recipe is read as the recipe with its
settings in the order of their keys (`parse_canonical`), and what is read has distinct keys.
-/

namespace Provision.Store

variable {w w' : Workspace} {path : Path} {l : List String} {room : Room} {troubles : Disk.Troubles}

theorem fromUTF8_toUTF8 (s : String) : String.fromUTF8? s.toUTF8 = some s := by
  have hv : s.toUTF8.IsValidUTF8 := s.isValidUTF8
  rw [String.fromUTF8?, dif_pos hv]
  rfl

theorem blanks_nil : ∀ c ∈ "".toList, Json.isSpace c = true := by simp

theorem blanks_newline : ∀ c ∈ "\n".toList, Json.isSpace c = true := by
  simp [Json.isSpace]

theorem parse_canonical {r : Recipe} (hx : r.isExact = true) (hk : r.WellKeyed) {text : String}
    (h : r.canonical = .ok text) {blanks : String} (hb : ∀ c ∈ blanks.toList, Json.isSpace c = true)
    (path : Path) (now : Timestamp) :
    parseRecipe path now (text ++ blanks).toUTF8 = .ok r.ordered := by
  obtain ⟨v, hv, hr⟩ := Recipe.read_canonical hx hk h hb now
  simp only [parseRecipe, fromUTF8_toUTF8, hv, hr]

theorem wellKeyed_of_parse {now : Timestamp} {bytes : ByteArray} {r : Recipe}
    (h : parseRecipe path now bytes room = .ok r) : r.WellKeyed := by
  unfold parseRecipe at h
  split at h
  · cases h
  · split at h
    · cases h
    · cases h
    · cases h
    · rename_i v hv
      split at h
      · rename_i hr
        cases h
        exact Recipe.wellKeyed_of_ofJson (Json.wellKeyed_of_read hv) hr
      · cases h

theorem readOnly_liftExcept {α : Type} (x : Except Failure α) :
    ReadOnly (readRecipe.liftExcept x) := by
  cases x with
  | ok a => exact .pure a
  | error f => exact .throw f

/-- Reading and parsing, once it is known that a file is there. -/
def readFile (path : Path) (room : Room := .standard) (troubles : Disk.Troubles := .none) : StoreM Recipe := do
  let content ← WorkM.onDisk (.wrapping (.unreadable path)) (Disk.read path troubles)
  readRecipe.liftExcept (parseRecipe path (← WorkM.now) content.toBytes room)

theorem readRecipe_eq (path : Path) (room : Room) (troubles : Disk.Troubles) :
    readRecipe path room troubles = (do
      if ← WorkM.onDisk .disk (Disk.isFile path troubles) then readFile path room troubles
      else throw (.store (.recipeNotFound path))) := by
  rw [readRecipe]
  refine bind_congr fun b => ?_
  cases b <;> rfl

theorem readOnly_readFile (path : Path) : ReadOnly (readFile path room troubles) :=
  .bind (WorkM.readOnly_onDisk (Disk.readOnly_read path)) fun _ =>
    .bind (fun _ => rfl) fun _ => readOnly_liftExcept _

theorem readOnly_readRecipe (path : Path) : ReadOnly (readRecipe path room troubles) := by
  rw [readRecipe_eq]
  refine .bind (WorkM.readOnly_onDisk (Disk.readOnly_isFile path)) fun b => ?_
  cases b with
  | true => exact readOnly_readFile path
  | false => exact .throw _

theorem logs_projectIn (entry : Path) : Preserves Workspace.Logs (projectIn entry room troubles) := by
  refine .bind .trans ((WorkM.readOnly_onDisk (Disk.readOnly_isDir entry)).preserves .refl) fun b => ?_
  cases b with
  | false => exact .pure .refl _
  | true =>
    refine .tryCatch .trans (.map _ (.map _ ((readOnly_readRecipe _).preserves .refl))) fun f => ?_
    split
    · exact .bind .trans (fun w => Workspace.logs_emit w _) fun _ => .pure .refl _
    · exact .throw .refl _

theorem readOnly_checkName (s : String) : ReadOnly (checkName s) := by
  rw [checkName]
  split
  · exact .pure _
  · exact .throw _

theorem run_checkName {name : String} (h : isName name = true) (w : Workspace) :
    (checkName name).run w = (.ok (), w) := by
  rw [checkName, if_pos h]
  rfl

theorem run_checkName_refused {name : String} (h : isName name ≠ true) (w : Workspace) :
    (checkName name).run w = (.error (.store (.invalidName name)), w) := by
  rw [checkName, if_neg h]
  rfl

theorem run_projectDir (s : Store) {id : String} (h : isName id = true) (w : Workspace) :
    (s.projectDir id).run w = (.ok (s.entryPath id), w) :=
  run_bind_ok (run_checkName h w)

theorem readOnly_loadRecipe (s : Store) (id : String) : ReadOnly (s.loadRecipe id room troubles) :=
  .bind (readOnly_checkName id) fun _ => readOnly_readRecipe _

theorem readOnly_assetsIn (dir : Path) (names : List String) : ReadOnly (assetsIn dir names troubles) := by
  induction names with
  | nil => exact .pure _
  | cons name rest ih => exact (Disk.readOnly_probe _).bind fun _ => ih.bind fun _ => .pure _

theorem readOnly_listAssets (s : Store) (id : String) : ReadOnly (s.listAssets id troubles) := by
  refine .bind ((readOnly_checkName id).bind fun _ => .pure _) fun dir => ?_
  refine .bind (WorkM.readOnly_onDisk (Disk.readOnly_isDir dir)) fun b => ?_
  cases b with
  | true =>
    exact .bind (WorkM.readOnly_onDisk (Disk.readOnly_list dir)) fun _ =>
      WorkM.readOnly_onDisk (readOnly_assetsIn dir _)
  | false => exact .throw _

theorem run_readRecipe {mode : Nat} {c : Content} (h : w.disk.Finds path (.found l (.file mode c))) :
    (readRecipe path room).run w =
      match parseRecipe path w.now c.toBytes room with
      | .ok r => (.ok r, w)
      | .error f => (.error f, w) := by
  rw [readRecipe_eq, run_bind_ok (WorkM.run_onDisk_ok (Disk.run_isFile_found h))]
  change (readFile path room).run w = _
  rw [readFile, run_bind_ok (WorkM.run_onDisk_ok (Disk.run_read h)), run_bind_ok (WorkM.run_now w)]
  split <;> (rename_i hp; rw [hp]; rfl)

theorem run_loadRecipe {s : Store} {id : String} {mode : Nat} {c : Content} {r : Recipe}
    (hid : isName id = true) (h : w.disk.Finds (s.recipePath id) (.found l (.file mode c)))
    (hparse : parseRecipe (s.recipePath id) w.now c.toBytes room = .ok r) :
    (s.loadRecipe id room).run w = (.ok r, w) := by
  rw [loadRecipe, run_bind_ok (run_checkName hid w)]
  refine (run_readRecipe h).trans ?_
  rw [hparse]

theorem run_assetsIn {d : Disk} {dir : Path} {xs : List (String × Node)}
    (h : ∀ x ∈ xs, (Disk.probe (dir.entry x.1)).run d = (.ok (some x.2), d)) :
    (assetsIn dir (xs.map (·.1))).run d = (.ok ((fileEntries xs).map fun (name, n) => ⟨name, n.size⟩), d) := by
  induction xs with
  | nil => rfl
  | cons x xs ih =>
    obtain ⟨name, n⟩ := x
    obtain ⟨hfirst, hrest⟩ := List.forall_mem_cons.1 h
    rw [List.map_cons, assetsIn, run_bind_ok hfirst, run_bind_ok (ih hrest)]
    cases hn : n.isFile <;> simp [hn, fileEntries, Option.filter_some]

theorem run_listAssets_found {s : Store} {id : String} {es : List (String × Node)} (hid : isName id = true)
    (h : w.disk.Finds (s.assetsPath id) (.found l (.dir es)))
    (hes : ∀ x ∈ es, (Disk.probe ((s.assetsPath id).entry x.1)).run w.disk = (.ok (some x.2), w.disk)) :
    (s.listAssets id).run w = (.ok ((fileEntries (sortByKey es)).map fun (name, n) => ⟨name, n.size⟩), w) := by
  rw [listAssets, assetsDir, bind_assoc, run_bind_ok (run_checkName hid w), pure_bind,
    run_bind_ok (WorkM.run_onDisk_ok (Disk.run_isDir_found h))]
  refine (run_bind_ok (WorkM.run_onDisk_ok (Disk.run_list h))).trans (WorkM.run_onDisk_ok (run_assetsIn fun x hx => ?_))
  exact hes x (mem_sortByKey.1 hx)

theorem run_listAssets_none {s : Store} {id : String} (hid : isName id = true)
    (h : (Disk.isDir (s.assetsPath id)).run w.disk = (.ok false, w.disk)) :
    (s.listAssets id).run w = (.error (.store (.assetsNotFound id)), w) := by
  rw [listAssets, assetsDir, bind_assoc, run_bind_ok (run_checkName hid w), pure_bind,
    run_bind_ok (WorkM.run_onDisk_ok h)]
  rfl

theorem readRecipe_eq_ok {r : Recipe} (h : (readRecipe path room troubles).run w = (.ok r, w')) :
    ∃ l mode c, w.disk.Finds path (.found l (.file mode c)) ∧
      parseRecipe path w.now c.toBytes room = .ok r := by
  rw [readRecipe_eq] at h
  obtain ⟨b, w₁, h1, h2⟩ := run_bind_eq_ok.1 h
  obtain rfl := (WorkM.readOnly_onDisk (Disk.readOnly_isFile path)).run_eq h1
  cases b with
  | false => cases h2
  | true =>
    obtain ⟨c, w₂, h3, h4⟩ := run_bind_eq_ok.1 h2
    obtain ⟨d, hread, rfl⟩ := WorkM.onDisk_eq_ok h3
    obtain ⟨rfl, l, mode, hfinds⟩ := Disk.read_eq_ok hread
    rw [run_bind_ok (WorkM.run_now _)] at h4
    refine ⟨l, mode, c, hfinds, ?_⟩
    cases hp : parseRecipe path w.now c.toBytes room with
    | ok r' => rw [hp] at h4; cases h4; rfl
    | error f => rw [hp] at h4; cases h4

theorem loadRecipe_eq_ok {s : Store} {id : String} {r : Recipe}
    (h : (s.loadRecipe id room troubles).run w = (.ok r, w')) :
    isName id = true ∧ ∃ l mode c, w.disk.Finds (s.recipePath id) (.found l (.file mode c)) ∧
      parseRecipe (s.recipePath id) w.now c.toBytes room = .ok r := by
  obtain ⟨u, w₁, hname, h⟩ := run_bind_eq_ok.1 h
  obtain rfl := (readOnly_checkName id).run_eq hname
  rw [checkName] at hname
  split at hname
  · rename_i hid
    exact ⟨hid, readRecipe_eq_ok h⟩
  · cases hname

theorem wellKeyed_of_loadRecipe {s : Store} {id : String} {r : Recipe}
    (h : (s.loadRecipe id room troubles).run w = (.ok r, w')) : r.WellKeyed := by
  obtain ⟨-, l, mode, c, -, hparse⟩ := loadRecipe_eq_ok h
  exact wellKeyed_of_parse hparse

end Provision.Store
