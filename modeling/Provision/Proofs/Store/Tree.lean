import Provision.Proofs.Disk.Creation
import Provision.Proofs.Store.Ledger
import Provision.Proofs.Store.Reading

/-!
# The tree of a store

A ledger has a tree (`Ledger.entries`): a directory for each record, with a directory of files and the
canonical text of the recipe. `Holds` says that a disk has the entries at the root of a store, and where
the paths of the store lead then; changes below the root (`Holds.setAt`) and logging (`Holds.emit`) are
told by what they do to the entries.
-/

namespace Provision

/-- What is in the file of a stored recipe. -/
def Recipe.fileText (r : Recipe) : String :=
  match r.canonical with
  | .ok text => text ++ "\n"
  | .error _ => ""

namespace Record

variable (rec : Record)

def filesNode : Node :=
  .dir (rec.files.map fun (name, bytes) => (name, .file 0o644 (.bytes bytes)))

def recipeEntry : List (String × Node) :=
  (rec.recipe.map fun r => (Save.recipeFile, .file 0o600 (.bytes r.fileText.toUTF8))).toList

def entries : List (String × Node) :=
  (Save.assetsDir, rec.filesNode) :: rec.recipeEntry

def node : Node :=
  .dir rec.entries

end Record

def Ledger.entries (m : Ledger) : List (String × Node) :=
  m.records.map fun (id, rec) => (id, rec.node)

namespace Record

variable {rec : Record}

theorem lookup_assets : rec.entries.lookup Save.assetsDir = some rec.filesNode :=
  List.lookup_cons_self

theorem lookup_recipe : rec.entries.lookup Save.recipeFile =
    rec.recipe.map fun r => .file 0o600 (.bytes r.fileText.toUTF8) := by
  rw [entries, lookup_cons_of_ne (by decide), recipeEntry]
  cases rec.recipe with
  | none => rfl
  | some r => exact List.lookup_cons_self

theorem tempName_not_mem : Disk.tempName ∉ rec.entries.map (·.1) := by
  have h1 : Disk.tempName ≠ Save.assetsDir := by decide
  have h2 : Disk.tempName ≠ Save.recipeFile := by decide
  rw [entries, recipeEntry]
  cases rec.recipe <;> simp [h1, h2]

theorem put_recipe (r : Recipe) :
    put Save.recipeFile (.file 0o600 (.bytes r.fileText.toUTF8)) rec.entries =
      { rec with recipe := some r }.entries := by
  have h : Save.assetsDir ≠ Save.recipeFile := by decide
  rw [entries, entries, put, if_neg h]
  cases hr : rec.recipe with
  | none => simp [recipeEntry, hr, put, filesNode]
  | some r' => simp [recipeEntry, hr, put, filesNode]

theorem put_files (filename : String) (bytes : ByteArray) :
    put Save.assetsDir (.dir (put filename (.file 0o644 (.bytes bytes))
        (rec.files.map fun (name, bytes) => (name, .file 0o644 (.bytes bytes))))) rec.entries =
      { rec with files := put filename bytes rec.files }.entries := by
  rw [put_map fun bytes : ByteArray => Node.file 0o644 (.bytes bytes), entries, put, if_pos rfl]
  rfl

end Record

namespace Ledger

theorem lookup_entries (m : Ledger) (id : String) :
    m.entries.lookup id = (m.records.lookup id).map Record.node :=
  lookup_map Record.node id m.records

theorem entries_setRecord (m : Ledger) (id : String) (rec : Record) :
    (m.setRecord id rec).entries = put id rec.node m.entries :=
  (put_map Record.node id rec m.records).symm

end Ledger

namespace Store

variable {s : Store} {id filename : String}

/-- Below the root of a store come at most the name of a project, the directory for files and the name
of a file. -/
def roomBelow : Nat := 519

theorem room_entry {p : Path} (h : p.Room roomBelow) (hid : IsEntryName id) : (p.child id).Room 263 :=
  (h.mono (by have := hid.size; simp only [roomBelow, Disk.longestName] at *; omega)).child hid.isEntry

theorem room_assets (h : s.root.Room roomBelow) (hid : IsEntryName id) :
    (s.assetsPath id).Room 256 :=
  (room_entry h hid).child Save.isEntry_assetsDir

theorem room_recipe (h : s.root.Room roomBelow) (hid : IsEntryName id) :
    (s.recipePath id).Room 0 :=
  ((room_entry h hid).mono (by decide)).child Save.isEntry_recipeFile

theorem room_file (h : s.root.Room roomBelow) (hid : IsEntryName id) (hf : IsEntryName filename) :
    ((s.assetsPath id).child filename).Room 0 :=
  ((room_assets h hid).mono (by have := hf.size; simp only [Disk.longestName] at *; omega)).child
    hf.isEntry

variable {d d' : Disk} {place t : List String} {es es' : List (String × Node)} {m : Ledger}
  {rec : Record} {w : Workspace}

/-- The disk has the entries at the root of the store, whose paths the system takes, and the held file
is none below the root. -/
structure Holds (s : Store) (place : List String) (es : List (String × Node)) (d : Disk) : Prop where
  root : d.Finds s.root (.found place (.dir es))
  room : s.root.Room roomBelow
  roomAbsolute : (d.absolute s.root).Room roomBelow
  cwd : ∀ x ∈ d.cwd, Disk.IsPlain x
  held : ∀ l, d.held = some l → ¬ place <+: l

namespace Holds

theorem setAt (h : Holds s place es d) {n : Option Node} (hno : d.root.NoDirAt (place ++ t))
    (ht : t ≠ []) (hes : (Node.dir es).set n t = .dir es') :
    Holds s place es' (d.setAt (place ++ t) n) :=
  ⟨h.root.setAt_below hno ht hes, h.room, h.roomAbsolute, h.cwd, h.held⟩

theorem setBelow {es₀ : List (String × Node)} (h : Holds s place (put id (.dir es) es₀) d)
    {n : Option Node} (hno : d.root.NoDirAt (place ++ [id] ++ t)) (ht : t ≠ [])
    (hes : (Node.dir es).set n t = .dir es') :
    Holds s place (put id (.dir es') es₀) (d.setAt (place ++ [id] ++ t) n) := by
  rw [List.append_assoc] at hno ⊢
  refine h.setAt hno (List.cons_ne_nil id t) ?_
  change (Node.dir _).set n (id :: t) = _
  rw [Node.set_below (by rw [lookup_put, if_pos rfl]) ht, hes, put_put]

theorem append (h : Holds s place es d) (bytes : ByteArray) : Holds s place es (d.append bytes) := by
  unfold Disk.append
  split
  · exact h
  · rename_i l hl
    split
    · rename_i mode c hc
      have hno := Node.noDirAt_of_file hc
      have hbelow := h.held l hl
      have habove : ¬ l <+: place := fun hp =>
        hbelow (hno.eq_of_above (by rw [Disk.get_of_walk h.root.leads]; rfl) hp ▸ List.prefix_refl l)
      exact ⟨h.root.setAt_apart _ hno habove hbelow, h.room, h.roomAbsolute, h.cwd, h.held⟩
    · exact h

theorem writeLine (h : Holds s place es w.disk) (x : Log.Sink × String) :
    Holds s place es (w.writeLine x).disk := by
  obtain ⟨_ | path, line⟩ := x
  · exact h
  · exact h.append _

theorem emit (h : Holds s place es w.disk) (r : Log.Record) : Holds s place es (w.emit r).disk := by
  rw [Workspace.emit]
  generalize w.log.lines w.now r = xs
  induction xs generalizing w with
  | nil => exact h
  | cons x xs ih => exact ih (h.writeLine x)

theorem entry_some (h : Holds s place es d) (hid : IsEntryName id) {n : Node}
    (hl : es.lookup id = some n) : d.Finds (s.entryPath id) (.found (place ++ [id]) n) :=
  h.root.entry_some hid.isEntry (room_entry h.room hid) hl

theorem entry_none (h : Holds s place es d) (hid : IsEntryName id) (hl : es.lookup id = none) :
    d.Finds (s.entryPath id) (.absent (place ++ [id])) :=
  h.root.entry_none hid.isEntry (room_entry h.room hid) hl

theorem assets (h : Holds s place es d) (hid : IsEntryName id) (hl : es.lookup id = some rec.node) :
    d.Finds (s.assetsPath id) (.found (place ++ [id] ++ [Save.assetsDir]) rec.filesNode) :=
  (h.entry_some hid hl).entry_some Save.isEntry_assetsDir (room_assets h.room hid) Record.lookup_assets

theorem probes_files (h : Holds s place es d) (hid : IsEntryName id) (hl : es.lookup id = some rec.node)
    (hrec : rec.Named) : ∀ x ∈ rec.files.map fun (name, bytes) => (name, Node.file 0o644 (.bytes bytes)),
      (Disk.probe ((s.assetsPath id).entry x.1)).run d = (.ok (some x.2), d) := by
  intro x hx
  obtain ⟨⟨name, bytes⟩, hmem, rfl⟩ := List.mem_map.1 hx
  have hname := hrec.names name (List.mem_map_of_mem hmem)
  have hkeyed := (isKeyed_map fun bytes : ByteArray => Node.file 0o644 (.bytes bytes)).2 hrec.keyed
  exact Disk.run_probe_entry (h.assets hid hl) hname.isEntry (room_file h.room hid hname) (lookup_of_mem hkeyed hx)

theorem recipe_some (h : Holds s place es d) (hid : IsEntryName id)
    (hl : es.lookup id = some rec.node) {r : Recipe} (hr : rec.recipe = some r) :
    d.Finds (s.recipePath id) (.found (place ++ [id] ++ [Save.recipeFile])
      (.file 0o600 (.bytes r.fileText.toUTF8))) :=
  (h.entry_some hid hl).entry_some Save.isEntry_recipeFile (room_recipe h.room hid)
    (by rw [Record.lookup_recipe, hr]; rfl)

theorem recipe_none (h : Holds s place es d) (hid : IsEntryName id)
    (hl : es.lookup id = some rec.node) (hr : rec.recipe = none) : d.Missing (s.recipePath id) :=
  ((h.entry_some hid hl).entry_none Save.isEntry_recipeFile (room_recipe h.room hid)
    (by rw [Record.lookup_recipe, hr]; rfl)).missing

theorem absolute (h : Holds s place es d) (hid : IsEntryName id) {n : Node}
    (hl : es.lookup id = some n) :
    (d.absolute (s.entryPath id)).Room 263 ∧
      d.Finds (d.absolute (s.entryPath id)) (.found (place ++ [id]) n) := by
  have hroom := room_entry h.roomAbsolute hid
  rw [entryPath, Disk.absolute_child d s.root hid.isEntry.single hid.isEntry.plain.ne_dots]
  exact ⟨hroom, (h.root.absolute h.cwd h.roomAbsolute).entry_some hid.isEntry hroom hl⟩

end Holds

end Store

end Provision
