import Provision.Proofs.Recipe.Order
import Provision.Proofs.Store.Names

/-!
# Ledgers

What a store promises, without a disk: a ledger keeps a record for each project, which is the recipe last
saved and the bytes last saved for each file. `Ledger.perform` is what clients of a store go by, and
`Ledger.replies` and `Store.replies` are what a sequence of operations is answered by each.
-/

namespace Provision

structure Record where
  recipe : Option Recipe := none
  files : List (String × ByteArray) := []

structure Ledger where
  records : List (String × Record) := []
  /-- How many ids have been given out. -/
  issued : Nat := 0

namespace Store

inductive Op where
  | create (name description : String) (targets : List String)
  | save (r : Recipe)
  | load (id : String)
  | list
  | saveAsset (id filename : String) (bytes : ByteArray)
  | listAssets (id : String)
  | ensure (id : String)

inductive Answer where
  | recipe (r : Recipe)
  | projects (ps : List Project)
  | assets (as : List Asset)
  | path (p : Path)

def perform (s : Store) : Op → StoreM Answer
  | .create name description targets => .recipe <$> s.createProject name description targets
  | .save r => .recipe <$> s.saveRecipe r
  | .load id => .recipe <$> s.loadRecipe id
  | .list => .projects <$> s.listProjects
  | .saveAsset id filename bytes => .path <$> s.saveAsset id filename bytes
  | .listAssets id => .assets <$> s.listAssets id
  | .ensure id => .path <$> s.ensureProjectDir id

/-- The answers to operations, each at its time. -/
def replies (s : Store) : List (Timestamp × Op) → Workspace → List (Except Failure Answer)
  | [], _ => []
  | (now, op) :: ops, w =>
    let (a, w') := (s.perform op).run { w with now }
    a :: s.replies ops w'

/-- The names in an operation are good, and a recipe that is saved can be stored. -/
def Op.Fits : Op → Prop
  | .create _ _ _ | .list => True
  | .save r => IsEntryName r.project.id ∧ r.IsStorable
  | .load id | .listAssets id | .ensure id => IsEntryName id
  | .saveAsset id filename _ => IsEntryName id ∧ IsEntryName filename

/-- The answers are the same up to the order of settings in a recipe. -/
def Answer.Alike : Answer → Answer → Prop
  | .recipe r, .recipe r' => r.Alike r'
  | a, a' => a = a'

def SameReply : Except Failure Answer → Except Failure Answer → Prop
  | .ok a, .ok a' => a.Alike a'
  | x, x' => x = x'

end Store

namespace Ledger

open Store (Op Answer)

variable (m : Ledger)

/-- The record of a project; an empty one where there is none. -/
def record (id : String) : Record :=
  (m.records.lookup id).getD {}

def setRecord (id : String) (rec : Record) : Ledger :=
  { m with records := put id rec m.records }

def saveRecipe (r : Recipe) : Ledger :=
  m.setRecord r.project.id { m.record r.project.id with recipe := some r }

def saveFile (id filename : String) (bytes : ByteArray) : Ledger :=
  m.setRecord id { m.record id with files := put filename bytes (m.record id).files }

/-- The projects with a recipe, in the order of their ids. -/
def projects : List Project :=
  (sortByKey m.records).filterMap fun (_, rec) => rec.recipe.map Recipe.project

def issue : Ledger :=
  { m with issued := m.issued + 1 }

/-- The recipe that a project starts with. -/
def starter (now : Timestamp) (name description : String) (targets : List String) : Recipe :=
  let r := Recipe.starter (String.ofList (Text.hex 32 (m.issued + 1))) name now
  { r with
    project := { r.project with
      description, target := if targets.isEmpty then r.project.target else targets } }

/-- An operation at a time. The store is named for the paths in its answers. -/
def perform (s : Store) (now : Timestamp) : Op → Except Failure Answer × Ledger
  | .create name description targets =>
    let r := m.starter now name description targets
    (.ok (.recipe r), m.issue.saveRecipe r)
  | .save r =>
    let stored := { r with updatedAt := now }
    (.ok (.recipe stored), m.saveRecipe stored)
  | .load id =>
    match (m.record id).recipe with
    | some r => (.ok (.recipe r), m)
    | none => (.error (.store (.recipeNotFound (s.recipePath id))), m)
  | .list => (.ok (.projects m.projects), m)
  | .saveAsset id filename bytes =>
    (.ok (.path ((s.assetsPath id).child filename)), m.saveFile id filename bytes)
  | .listAssets id =>
    match m.records.lookup id with
    | some rec => (.ok (.assets ((sortByKey rec.files).map fun (name, b) => ⟨name, b.size⟩)), m)
    | none => (.error (.store (.assetsNotFound id)), m)
  | .ensure id => (.ok (.path (s.entryPath id)), m.setRecord id (m.record id))

def replies (m : Ledger) (s : Store) : List (Timestamp × Op) → List (Except Failure Answer)
  | [] => []
  | (now, op) :: ops =>
    let (a, m') := m.perform s now op
    a :: m'.replies s ops

end Ledger

namespace Store

theorem isStorable_starter (m : Ledger) (now : Timestamp) (name description : String)
    (targets : List String) : (m.starter now name description targets).IsStorable :=
  ⟨rfl, ⟨by simp [Ledger.starter, Recipe.starter, IsKeyed], nofun⟩, nofun, nofun⟩

end Store

/-- There is one file of a name, and the names are good ones. -/
structure Record.Named (rec : Record) : Prop where
  keyed : IsKeyed rec.files
  names : ∀ x ∈ rec.files.map (·.1), Store.IsEntryName x

theorem Record.named_empty : ({} : Record).Named :=
  ⟨isKeyed_nil, nofun⟩

theorem Record.Named.put {rec rec' : Record} {filename : String} {bytes : ByteArray} (h : rec.Named)
    (hf : Store.IsEntryName filename) (hrec : rec'.files = Provision.put filename bytes rec.files) : rec'.Named := by
  refine ⟨hrec ▸ isKeyed_put filename bytes h.keyed, fun x hx => ?_⟩
  rw [hrec, keys_put] at hx
  split at hx
  · exact h.names x hx
  · rcases List.mem_append.1 hx with hx | hx
    · exact h.names x hx
    · exact List.mem_singleton.1 hx ▸ hf

namespace Ledger

/-- A ledger has one record for a project and one file of a name, under good names, and its recipes can
be stored. -/
structure Sound (m : Ledger) : Prop where
  keyed : IsKeyed m.records
  names : ∀ id rec, (id, rec) ∈ m.records → Store.IsEntryName id
  files : ∀ id rec, (id, rec) ∈ m.records → rec.Named
  recipes : ∀ id rec, (id, rec) ∈ m.records → ∀ r, rec.recipe = some r → r.IsStorable

variable {m : Ledger} {id : String} {rec : Record}

theorem sound_nil (n : Nat) : Sound ⟨[], n⟩ :=
  ⟨isKeyed_nil, nofun, nofun, nofun⟩

theorem record_of_lookup (h : m.records.lookup id = some rec) : m.record id = rec := by
  rw [record, h, Option.getD_some]

theorem record_of_none (h : m.records.lookup id = none) : m.record id = {} := by
  rw [record, h, Option.getD_none]

theorem Sound.record_files (h : m.Sound) (id : String) : (m.record id).Named := by
  cases hl : m.records.lookup id with
  | none => rw [record_of_none hl]; exact Record.named_empty
  | some rec => rw [record_of_lookup hl]; exact h.files id rec (mem_of_lookup hl)

theorem Sound.record_recipe (h : m.Sound) (id : String) {r : Recipe}
    (hr : (m.record id).recipe = some r) : r.IsStorable := by
  cases hl : m.records.lookup id with
  | none => rw [record_of_none hl] at hr; cases hr
  | some rec => rw [record_of_lookup hl] at hr; exact h.recipes id rec (mem_of_lookup hl) r hr

theorem Sound.setRecord (h : m.Sound) (hid : Store.IsEntryName id) (hf : rec.Named)
    (hr : ∀ r, rec.recipe = some r → r.IsStorable) : (m.setRecord id rec).Sound := by
  refine ⟨isKeyed_put id rec h.keyed, fun id' rec' hmem => ?_, fun id' rec' hmem => ?_,
    fun id' rec' hmem => ?_⟩
  · rcases mem_put hmem with he | hmem
    · cases he; exact hid
    · exact h.names id' rec' hmem
  · rcases mem_put hmem with he | hmem
    · cases he; exact hf
    · exact h.files id' rec' hmem
  · rcases mem_put hmem with he | hmem
    · cases he; exact hr
    · exact h.recipes id' rec' hmem

theorem Sound.saveRecipe (h : m.Sound) {r : Recipe} (hid : Store.IsEntryName r.project.id)
    (hr : r.IsStorable) : (m.saveRecipe r).Sound :=
  h.setRecord hid ⟨(h.record_files _).keyed, (h.record_files _).names⟩ fun _ he => Option.some.inj he ▸ hr

theorem Sound.saveFile {filename : String} (h : m.Sound) (hid : Store.IsEntryName id)
    (hf : Store.IsEntryName filename) (bytes : ByteArray) : (m.saveFile id filename bytes).Sound :=
  h.setRecord hid ((h.record_files id).put hf rfl) fun _ => h.record_recipe id

theorem Sound.ensure (h : m.Sound) (hid : Store.IsEntryName id) :
    (m.setRecord id (m.record id)).Sound :=
  h.setRecord hid (h.record_files id) fun _ => h.record_recipe id

end Ledger

end Provision
