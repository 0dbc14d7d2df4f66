import Provision.Proofs.Json.RoundTrip
import Provision.Proofs.Outcome
import Provision.Proofs.Timestamp
import Provision.Recipe.Decode
import Provision.Recipe.Wire

/-!
# Stored recipes read back

`read_canonical`: the canonical text of a recipe without floating-point numbers is read as the recipe
with the settings of every step in the order of their keys (`Recipe.ordered`). The wire form of a recipe
is a plain value, so the text reads back as the wire form, and every field of a record is found under
the key that it was written with.
-/

namespace Provision

/-- Whether no setting of a recipe holds a floating-point number. -/
def Recipe.isExact (r : Recipe) : Bool :=
  r.steps.all fun s => (Json.obj s.config).isExact

/-- Variables have distinct names, and the settings distinct keys at every depth. -/
structure Recipe.WellKeyed (r : Recipe) : Prop where
  vars : IsKeyed r.vars
  settings : ∀ s ∈ r.steps, (Json.obj s.config).WellKeyed

/-- The recipe with the settings of every step changed. -/
def Recipe.mapSettings (f : Members → Members) (r : Recipe) : Recipe :=
  { r with steps := r.steps.map fun s => { s with config := f s.config } }

/-- The recipe with the settings of every step in the order of their keys. -/
def Recipe.ordered (r : Recipe) : Recipe :=
  r.mapSettings sortByKey

theorem Recipe.mapSettings_congr {f g : Members → Members} {r : Recipe}
    (h : ∀ s ∈ r.steps, f s.config = g s.config) : r.mapSettings f = r.mapSettings g := by
  have hs : (r.steps.map fun s => { s with config := f s.config }) =
      r.steps.map fun s => { s with config := g s.config } :=
    List.map_congr_left fun s hs => by rw [h s hs]
  rw [mapSettings, mapSettings, hs]

namespace Decode

@[simp] theorem checked_map_ok {α β : Type} (f : α → β) (a : α) :
    f <$> Checked.ok a = Checked.ok (f a) := rfl

@[simp] theorem checked_seq_ok {α β : Type} (f : α → β) (a : α) :
    Checked.ok f <*> Checked.ok a = Checked.ok (f a) := rfl

@[simp] theorem under_ok {α : Type} (p : Place) (a : α) : (Checked.ok a).under p = .ok a := rfl

theorem items_map {α β : Type} {read : Json → Checked β} {f : α → Json} {g : α → β} {xs : List α}
    (h : ∀ x ∈ xs, read (f x) = .ok (g x)) (i : Nat) :
    items read i (xs.map f) = .ok (xs.map g) := by
  induction xs generalizing i with
  | nil => rfl
  | cons x xs ih =>
    rw [List.map_cons, items, h x List.mem_cons_self,
      ih (fun y hy => h y (List.mem_cons_of_mem _ hy))]
    rfl

theorem entries_map {α : Type} {read : Json → Checked α} {f : α → Json}
    (h : ∀ a, read (f a) = .ok a) (ms : List (String × α)) :
    entries read (ms.map fun (k, a) => (k, f a)) = .ok ms := by
  induction ms with
  | nil => rfl
  | cons m ms ih =>
    rw [List.map_cons, entries, h, ih]
    rfl

theorem entries_raw (ms : Members) : entries raw ms = .ok ms := by
  have h := @entries_map Json raw id (fun _ => rfl) ms
  rwa [show (fun (m : String × Json) => (m.1, id m.2)) = id from rfl, List.map_id] at h

end Decode

open Decode

theorem Project.ofJson_wire (p : Project) : Project.ofJson p.wire = .ok p := by
  have htarget : items string 0 (p.target.map .str) = .ok p.target := by
    have h := @items_map _ _ string Json.str (fun t => t) p.target (fun _ _ => rfl) 0
    rwa [List.map_id'] at h
  simp [Project.ofJson, Project.wire, record, field, Members.get?, lookup_cons_eq, string, orEmpty, list,
    htarget]

theorem Step.ofJson_wireWith (s : Step) (config : Members) :
    Step.ofJson (s.wireWith config) = .ok { s with config } := by
  simp [Step.ofJson, Step.wireWith, record, field, Members.get?, lookup_cons_eq, string, orEmpty, object,
    entries_raw]

theorem Recipe.ofJson_wireWith {order : Members → Members} {r : Recipe} {v : Json}
    (h : r.wireWith order = .ok v) (now : Timestamp) :
    Recipe.ofJson now v = .ok (r.mapSettings fun c => order (Json.finiteMembers c)) := by
  rw [wireWith] at h
  split at h
  · cases h
  · cases h
    have hsteps : items Step.ofJson 0
        (r.steps.map fun s => s.wireWith (order (Json.finiteMembers s.config))) =
        .ok (r.steps.map fun s => { s with config := order (Json.finiteMembers s.config) }) :=
      items_map (fun s _ => s.ofJson_wireWith _) 0
    have hvars := @entries_map String string Json.str (fun _ => rfl) r.vars
    simp [Recipe.ofJson, record, field, renamed, renamed?, Members.get?, lookup_cons_eq, string, orEmpty,
      object, list, hsteps, hvars, Project.ofJson_wire, moment, moment.judge, Timestamp.read_text,
      mapSettings]

/-! ### The wire form is a plain value -/

namespace Recipe

variable {r : Recipe} {v : Json}

theorem height_le_of_wireWith {order : Members → Members} (h : r.wireWith order = .ok v)
    {s : Step} (hs : s ∈ r.steps) {m : String × Json} (hm : m ∈ s.config) :
    m.2.height ≤ nestingLimit := by
  rw [wireWith] at h
  split at h
  · cases h
  · rename_i hd
    simp only [List.any_eq_true, Step.nestsTooDeep, decide_eq_true_eq, not_exists, not_and] at hd
    exact Nat.le_of_not_lt (hd s hs m hm)

theorem finiteMembers_of_isExact (hx : r.isExact = true) {s : Step} (hs : s ∈ r.steps) :
    Json.finiteMembers s.config = s.config :=
  Json.finiteMembers_of_isExact _ (List.all_eq_true.1 hx s hs)

theorem wireWith_eq_ok {order : Members → Members} (h : r.wireWith order = .ok v) :
    v = .obj [
      ("schema_version", .str r.schemaVersion),
      ("project", r.project.wire),
      ("vars", .obj (r.vars.map fun (k, v) => (k, .str v))),
      ("steps", .arr (r.steps.map fun s => s.wireWith (order (Json.finiteMembers s.config)))),
      ("updatedAt", .str r.updatedAt.text)] := by
  rw [wireWith] at h
  split at h <;> cases h
  rfl

theorem wireWith_eq (hx : r.isExact = true) (h : r.wireWith sortByKey = .ok v) :
    v = .obj [
      ("schema_version", .str r.schemaVersion),
      ("project", r.project.wire),
      ("vars", .obj (r.vars.map fun (k, v) => (k, .str v))),
      ("steps", .arr (r.steps.map fun s => s.wireWith (sortByKey s.config))),
      ("updatedAt", .str r.updatedAt.text)] := by
  have hs : (r.steps.map fun s => s.wireWith (sortByKey (Json.finiteMembers s.config))) =
      r.steps.map fun s => s.wireWith (sortByKey s.config) :=
    List.map_congr_left fun s hs => by rw [finiteMembers_of_isExact hx hs]
  rw [wireWith_eq_ok h, hs]

theorem writable_of_steps {ms : Members} (hw : (Json.obj ms).writable = true)
    (hmem : ("steps", .arr (r.steps.map fun s => s.wireWith (sortByKey s.config))) ∈ ms) {s : Step}
    (hs : s ∈ r.steps) {m : String × Json} (hm : m ∈ s.config) : m.2.writable = true := by
  have hsteps := Json.writable_arr.1 (Json.writable_obj.1 hw _ hmem)
  have hstep := Json.writable_obj.1 (hsteps _ (List.mem_map_of_mem hs))
  have hconf := Json.writable_obj.1 (hstep ("config", .obj (sortByKey s.config)) (by simp))
  exact hconf m (mem_sortByKey.2 hm)

theorem writable_of_wireWith (hx : r.isExact = true) (h : r.wireWith sortByKey = .ok v)
    (hw : v.writable = true) {s : Step} (hs : s ∈ r.steps) {m : String × Json}
    (hm : m ∈ s.config) : m.2.writable = true := by
  rw [wireWith_eq hx h] at hw
  exact writable_of_steps hw (by simp) hs hm

open Json in
/-- Settings are as deep as they were when what is not finite has been replaced in them. -/
theorem keyedWithin_config (hk : r.WellKeyed) (h : r.wireWith sortByKey = .ok v) {s : Step} (hs : s ∈ r.steps) :
    KeyedWithin (nestingLimit + 1) (.obj (sortByKey (finiteMembers s.config))) := by
  obtain ⟨hkey, hvals⟩ := wellKeyed_obj.1 (hk.settings s hs)
  rw [finiteMembers_eq_mapFloats]
  refine .obj (isKeyed_sortByKey.2 (isKeyed_mapFloatsMembers.2 hkey)) fun m hm => ?_
  obtain ⟨m, hmem, rfl⟩ := mem_mapFloatsMembers.1 (mem_sortByKey.1 hm)
  refine ⟨wellKeyed_mapFloats wellKeyed_finiteFloat _ (hvals m hmem), ?_⟩
  rw [depth, levels_mapFloats levels_finiteFloat]
  exact Nat.le_trans (depth_le_height _) (height_le_of_wireWith h hs hmem)

open Json in
theorem keyedWithin_wireWith (hk : r.WellKeyed) (h : r.wireWith sortByKey = .ok v) :
    KeyedWithin (nestingLimit + 4) v := by
  have htarget : KeyedWithin (nestingLimit + 2) (.arr (r.project.target.map .str)) := by
    refine .arr fun x hx => ?_
    obtain ⟨t, -, rfl⟩ := List.mem_map.1 hx
    exact .str t
  have hproject : KeyedWithin (nestingLimit + 3) r.project.wire := by
    refine .obj (by simp [IsKeyed]) ?_
    simp only [List.forall_mem_cons]
    exact ⟨.str _, .str _, .str _, htarget, List.forall_mem_nil _⟩
  have hvars : KeyedWithin (nestingLimit + 3) (.obj (r.vars.map fun (k, v) => (k, .str v))) := by
    refine .obj ((isKeyed_map Json.str).2 hk.vars) fun m hm => ?_
    obtain ⟨⟨k, x⟩, -, rfl⟩ := List.mem_map.1 hm
    exact .str x
  have hsteps : KeyedWithin (nestingLimit + 3)
      (.arr (r.steps.map fun s => s.wireWith (sortByKey (finiteMembers s.config)))) := by
    refine .arr fun x hx => ?_
    obtain ⟨s, hs, rfl⟩ := List.mem_map.1 hx
    refine .obj (by simp [IsKeyed]) ?_
    simp only [List.forall_mem_cons]
    exact ⟨.str _, .str _, .str _, keyedWithin_config hk h hs, List.forall_mem_nil _⟩
  obtain rfl := wireWith_eq_ok h
  refine .obj (by simp [IsKeyed]) ?_
  simp only [List.forall_mem_cons]
  exact ⟨.str _, hproject, hvars, hsteps, .str _, List.forall_mem_nil _⟩

open Json in
theorem isExact_project (p : Project) : p.wire.isExact = true := by
  simp only [Project.wire, isExact_obj, isExact_arr, List.forall_mem_cons, List.forall_mem_map]
  exact ⟨rfl, rfl, rfl, fun _ _ => rfl, List.forall_mem_nil _⟩

open Json in
theorem isExact_wireWith (hx : r.isExact = true) (h : r.wireWith sortByKey = .ok v) : v.isExact = true := by
  have hconf : ∀ s ∈ r.steps, ∀ m ∈ sortByKey s.config, m.2.isExact = true := fun s hs m hm =>
    isExact_obj.1 (List.all_eq_true.1 hx s hs) m (mem_sortByKey.1 hm)
  rw [wireWith_eq hx h]
  simp only [isExact_obj, isExact_arr, List.forall_mem_cons, List.forall_mem_map, Step.wireWith]
  refine ⟨rfl, isExact_project _, fun m _ => rfl, fun s hs => ?_, rfl, List.forall_mem_nil _⟩
  exact ⟨rfl, rfl, rfl, hconf s hs, List.forall_mem_nil _⟩

theorem plainWithin_wireWith (hx : r.isExact = true) (hk : r.WellKeyed)
    (h : r.wireWith sortByKey = .ok v) (hw : v.writable = true) :
    Json.PlainWithin (nestingLimit + 4) v :=
  have hkeyed := keyedWithin_wireWith hk h
  ⟨⟨isExact_wireWith hx h, hkeyed.keyed, hw⟩, hkeyed.depth⟩

theorem canonical_eq_ok {text : String} :
    r.canonical = .ok text ↔
      ∃ v, r.wireWith sortByKey = .ok v ∧ v.writable = true ∧ text = v.toPretty .unicode := by
  rw [canonical, Except.bind_eq_ok]
  constructor
  · rintro ⟨v, hv, h⟩
    split at h
    · rename_i hw; cases h; exact ⟨v, hv, hw, rfl⟩
    · cases h
  · rintro ⟨v, hv, hw, rfl⟩
    exact ⟨v, hv, if_pos hw⟩

/-- The canonical text of a recipe reads back, with its settings in the order of their keys. -/
theorem read_canonical (hx : r.isExact = true) (hk : r.WellKeyed) {text : String}
    (h : r.canonical = .ok text) {blanks : String} (hb : ∀ c ∈ blanks.toList, Json.isSpace c = true)
    (now : Timestamp) : ∃ v, Json.read .standard (text ++ blanks) = .ok v ∧
      Recipe.ofJson now v = .ok r.ordered := by
  obtain ⟨v, hv, hw, rfl⟩ := canonical_eq_ok.1 h
  obtain ⟨hplain, hdepth⟩ := plainWithin_wireWith hx hk hv hw
  refine ⟨v, Json.read_toPretty rfl hplain (Nat.le_trans hdepth (by decide)) hb, ?_⟩
  rw [ofJson_wireWith hv, ordered, mapSettings_congr fun s hs => ?_]
  exact congrArg sortByKey (finiteMembers_of_isExact hx hs)

/-- The recipe has a canonical text, and the text loses nothing but the order of settings. -/
structure IsStorable (r : Recipe) : Prop where
  exact : r.isExact = true
  keyed : r.WellKeyed
  shallow : ∀ s ∈ r.steps, s.nestsTooDeep = false
  writable : ∀ s ∈ r.steps, (Json.obj s.config).writable = true

theorem IsStorable.canonical (h : r.IsStorable) : ∃ text, r.canonical = .ok text := by
  have hd : r.steps.any Step.nestsTooDeep = false := by simpa using h.shallow
  obtain ⟨v, hv⟩ : ∃ v, r.wireWith sortByKey = .ok v := ⟨_, by rw [wireWith, hd]; rfl⟩
  refine ⟨_, canonical_eq_ok.2 ⟨v, hv, ?_, rfl⟩⟩
  have hconf : ∀ s ∈ r.steps, (Json.obj (sortByKey s.config)).writable = true := fun s hs =>
    Json.writable_obj.2 fun m hm =>
      Json.writable_obj.1 (h.writable s hs) m (mem_sortByKey.1 hm)
  rw [wireWith_eq h.exact hv]
  simp only [Json.writable_obj, Json.writable_arr, List.forall_mem_cons, List.forall_mem_map,
    Project.wire, Step.wireWith]
  refine ⟨rfl, ?_, ?_, ?_, rfl, List.forall_mem_nil _⟩
  · exact ⟨rfl, rfl, rfl, fun t _ => rfl, List.forall_mem_nil _⟩
  · exact fun m _ => rfl
  · exact fun s hs => ⟨rfl, rfl, rfl, fun m hm => Json.writable_obj.1 (hconf s hs) m hm,
      List.forall_mem_nil _⟩

theorem IsStorable.dated (h : r.IsStorable) (t : Timestamp) :
    IsStorable { r with updatedAt := t } :=
  ⟨h.exact, ⟨h.keyed.vars, h.keyed.settings⟩, h.shallow, h.writable⟩

end Recipe

end Provision
