import Provision.Proofs.Recipe.Reordered

/-!
# Recipes with every key sorted

An answer has the members of every object in the order of their keys. A recipe that is read from its wire form in
that order (`Recipe.ofJson_sorted`) has sorted settings, which have no effect on what is compiled
(`Recipe.Reordered.check`, `Recipe.Reordered.script`), and sorted variables, which are another recipe
(`Recipe.byName`).
-/

namespace Provision

namespace Json

mutual

theorem alike_sorted : ∀ v : Json, v.Alike v.sorted
  | .arr items => ⟨sortedItems items, rfl, alikeItems_sorted items⟩
  | .obj members => ⟨sortByKey (sortedMembers members), sortedMembers members, rfl, (sortByKey_perm _).symm,
      alikeMembers_sorted members⟩
  | .null | .bool _ | .int _ | .float _ | .str _ => rfl

theorem alikeItems_sorted : ∀ vs : List Json, AlikeItems vs (sortedItems vs)
  | [] => rfl
  | v :: vs => ⟨v.sorted, sortedItems vs, rfl, alike_sorted v, alikeItems_sorted vs⟩

theorem alikeMembers_sorted : ∀ ms : List (String × Json), AlikeMembers ms (sortedMembers ms)
  | [] => rfl
  | (_, v) :: ms => ⟨v.sorted, sortedMembers ms, rfl, alike_sorted v, alikeMembers_sorted ms⟩

end

theorem isExactMembers_of_perm {ms ns : Members} (h : ms.Perm ns) : isExactMembers ms = isExactMembers ns := by
  rw [Bool.eq_iff_iff, isExactMembers_iff, isExactMembers_iff]
  exact ⟨fun hx m hm => hx m (h.mem_iff.2 hm), fun hx m hm => hx m (h.mem_iff.1 hm)⟩

mutual

theorem Alike.isExact : ∀ {v w : Json}, v.Alike w → v.isExact = w.isExact
  | .arr _, _, ⟨_, rfl, h⟩ => AlikeItems.isExact h
  | .obj _, _, ⟨_, _, rfl, hperm, h⟩ => (AlikeMembers.isExact h).trans (isExactMembers_of_perm hperm)
  | .null, _, rfl | .bool _, _, rfl | .int _, _, rfl | .float _, _, rfl | .str _, _, rfl => rfl

theorem AlikeItems.isExact : ∀ {vs ws : List Json}, AlikeItems vs ws → isExactItems vs = isExactItems ws
  | [], _, rfl => rfl
  | v :: vs, _, ⟨w, ws, rfl, h, hs⟩ => by
    rw [isExactItems, isExactItems, Alike.isExact h, AlikeItems.isExact hs]

theorem AlikeMembers.isExact : ∀ {ms ns : Members}, AlikeMembers ms ns → isExactMembers ms = isExactMembers ns
  | [], _, rfl => rfl
  | (k, v) :: ms, _, ⟨w, ns, rfl, h, hs⟩ => by
    rw [isExactMembers, isExactMembers, Alike.isExact h, AlikeMembers.isExact hs]

end

theorem AlikeMembers.lookup {ms ns : Members} (h : AlikeMembers ms ns) (key : String) :
    Option.Rel Alike (ms.lookup key) (ns.lookup key) := by
  have hall := alikeMembers_iff.1 h
  clear h
  induction hall with
  | nil => exact .none
  | @cons m n ms ns hm _ ih =>
    obtain ⟨k, v⟩ := m
    obtain ⟨k', w⟩ := n
    obtain ⟨rfl, hv⟩ := hm
    rw [lookup_cons_eq, lookup_cons_eq]
    split
    · exact .some hv
    · exact ih

theorem Alike.lookup {ms ns : Members} (h : (obj ms).Alike (obj ns)) (hk : IsKeyed ms) (key : String) :
    Option.Rel Alike (ms.lookup key) (ns.lookup key) := by
  obtain ⟨ns', reordered, heq, hperm, hms⟩ := h
  obtain rfl := obj.inj heq
  have hk' : IsKeyed reordered := by rwa [IsKeyed, ← hms.keys]
  rw [← lookup_eq_of_perm hk' hperm key]
  exact hms.lookup key

theorem sortedMembers_of_forall {ms : Members} (h : ∀ m ∈ ms, m.2.sorted = m.2) : sortedMembers ms = ms := by
  induction ms with
  | nil => rfl
  | cons m ms ih =>
    obtain ⟨k, v⟩ := m
    obtain ⟨hv, hms⟩ := List.forall_mem_cons.1 h
    rw [sortedMembers, ih hms, show v.sorted = v from hv]

theorem sortedItems_eq_map (vs : List Json) : sortedItems vs = vs.map sorted := by
  induction vs with
  | nil => rfl
  | cons v vs ih => rw [sortedItems, ih, List.map_cons]

end Json

/-! ### Reordered recipes -/

theorem Step.Reordered.agree {s s' : Step} (h : s.Reordered s') (hk : (Json.obj s.config).WellKeyed) :
    s.Agree (fun v w => v.WellKeyed ∧ v.Alike w) s' := by
  refine Step.Agree.keyed ⟨h.id, h.name, h.type, fun k _ d _ => ?_⟩ hk
  exact h.config.lookup (Json.wellKeyed_obj.1 hk).1 d.1

namespace Recipe

variable {r r' : Recipe}

theorem all_eq_of_forall₂ {α : Type} {f : α → Bool} {xs ys : List α}
    (h : List.Forall₂ (fun x y => f x = f y) xs ys) : xs.all f = ys.all f := by
  induction h with
  | nil => rfl
  | cons h _ ih => rw [List.all_cons, List.all_cons, h, ih]

theorem Reordered.isExact (h : r.Reordered r') : r.isExact = r'.isExact :=
  all_eq_of_forall₂ (h.steps.imp fun _ _ hs => hs.config.isExact)

section

variable (h : r.Reordered r') (hk : r.WellKeyed)

include h hk

theorem Reordered.agree : r.Agree (fun v w => v.WellKeyed ∧ v.Alike w) r' :=
  ⟨congrArg Project.name h.project, h.vars,
    ((List.forall₂_and_left _ _).2 ⟨hk.settings, h.steps⟩).imp fun _ _ hs => hs.2.agree hs.1⟩

theorem Reordered.check : Check.recipe r = Check.recipe r' :=
  Check.recipe_agree (fun _ _ hvw => hvw.2.sameMeaning hvw.1) (h.agree hk)

theorem Reordered.script {t : Moment} {script : String} (hscript : Installer.script r t = .ok script) :
    Installer.script r' t = .ok script := by
  have hsame := Installer.script_agree (fun _ _ hvw => hvw.2.sameMeaning hvw.1) (h.agree hk) t
  rw [hscript] at hsame
  cases hscript' : Installer.script r' t with
  | ok script' =>
    rw [hscript'] at hsame
    exact congrArg _ hsame.symm
  | error fault =>
    rw [hscript'] at hsame
    exact hsame.elim

theorem Reordered.isStorable_iff (hk' : r'.WellKeyed) : r.IsStorable ↔ r'.IsStorable := by
  have hwritable : (r.steps.all fun s => (Json.obj s.config).writable) =
      r'.steps.all fun s => (Json.obj s.config).writable :=
    all_eq_of_forall₂ (((List.forall₂_and_left _ _).2 ⟨hk.settings, h.steps⟩).imp fun _ _ hs =>
      (hs.2.config.sameMeasures hs.1).writable)
  have hparts : ∀ r : Recipe, r.WellKeyed → (r.IsStorable ↔ r.isExact = true ∧
      r.steps.any Step.nestsTooDeep = false ∧ (r.steps.all fun s => (Json.obj s.config).writable) = true) := by
    intro r hk
    rw [List.any_eq_false, List.all_eq_true]
    simp only [Bool.not_eq_true]
    exact ⟨fun hs => ⟨hs.exact, hs.shallow, hs.writable⟩, fun hs => ⟨hs.1, hk, hs.2.1, hs.2.2⟩⟩
  rw [hparts r hk, hparts r' hk', h.isExact, h.nestsTooDeep hk, hwritable]

end

/-- With all keys sorted the wire form is the same, as the settings of a step are an object of it. -/
theorem Alike.sorted_wire (h : r.Alike r') (hk : r.WellKeyed) : r.wire.map Json.sorted = r'.wire.map Json.sorted := by
  have hsteps : Json.sortedItems (r.steps.map fun s => s.wireWith (Json.finiteMembers s.config)) =
      Json.sortedItems (r'.steps.map fun s => s.wireWith (Json.finiteMembers s.config)) := by
    rw [Json.sortedItems_eq_map, Json.sortedItems_eq_map, List.map_map, List.map_map]
    refine map_eq_of_forall₂ (((List.forall₂_and_left _ _).2 ⟨hk.settings, h.steps⟩).imp fun s s' hs => ?_)
    obtain ⟨hkeyed, hs⟩ := hs
    have hsort : sortByKey (Json.sortedMembers (Json.finiteMembers s.config)) =
        sortByKey (Json.sortedMembers (Json.finiteMembers s'.config)) := by
      rw [Json.finiteMembers_eq_map, Json.finiteMembers_eq_map]
      exact Json.sortByKey_sortedMembers_of_perm (hs.config.map _)
        ((isKeyed_map Json.finite).2 (Json.wellKeyed_obj.1 hkeyed).1)
    simp only [Function.comp, Step.wireWith, Json.sorted, Json.sortedMembers, hsort, hs.id, hs.name, hs.type]
  rw [wire, wire, wireWith, wireWith, h.nestsTooDeep, h.schemaVersion, h.project, h.vars, h.updatedAt]
  split
  · rfl
  · simp only [Except.map, Json.sorted, Json.sortedMembers, id, hsteps]

/-- The recipe with its variables in the order of their names. -/
def byName (r : Recipe) : Recipe :=
  { r with vars := sortByKey r.vars }

/-- The recipe with its variables and the keys in its settings sorted, at any depth. -/
def sorted (r : Recipe) : Recipe :=
  r.byName.mapSettings fun c => sortByKey (Json.sortedMembers c)

theorem byName_reordered (r : Recipe) : r.byName.Reordered r.sorted := by
  refine ⟨rfl, rfl, rfl, ?_, rfl⟩
  rw [sorted, mapSettings, List.forall₂_map_right_iff, List.forall₂_same]
  exact fun s _ => ⟨rfl, rfl, rfl, Json.alike_sorted (.obj s.config)⟩

theorem WellKeyed.byName (hk : r.WellKeyed) : r.byName.WellKeyed :=
  ⟨isKeyed_sortByKey.2 hk.vars, hk.settings⟩

theorem IsStorable.of_byName (h : r.byName.IsStorable) (hk : r.WellKeyed) : r.IsStorable :=
  ⟨h.exact, hk, h.shallow, h.writable⟩

end Recipe

namespace Decode

variable {α : Type} {ms : Members} {default : α} {read : Json → Checked α}

theorem field_sortByKey (hk : IsKeyed ms) (key : String) :
    field (sortByKey ms) key default read = field ms key default read := by
  rw [field, field, Members.get?, Members.get?, lookup_sortByKey hk]

theorem renamed_sortByKey (hk : IsKeyed ms) (wire other : String) :
    renamed (sortByKey ms) wire other default read = renamed ms wire other default read := by
  simp only [renamed, renamed?, Members.get?, lookup_sortByKey hk]

end Decode

open Decode

theorem Project.ofJson_sorted (p : Project) : Project.ofJson p.wire.sorted = .ok p := by
  have htarget : Json.sortedItems (p.target.map .str) = p.target.map .str := by
    rw [Json.sortedItems_eq_map, List.map_map]
    rfl
  have hkeyed : IsKeyed [("id", Json.str p.id), ("name", .str p.name), ("description", .str p.description),
      ("target", .arr (p.target.map .str))] := by simp [IsKeyed]
  have hwire := p.ofJson_wire
  simp only [Project.wire, Project.ofJson, record] at hwire
  simp only [Project.wire, Json.sorted, Json.sortedMembers, htarget, Project.ofJson, record,
    field_sortByKey hkeyed]
  exact hwire

theorem Step.ofJson_sorted (s : Step) (config : Members) :
    Step.ofJson (s.wireWith config).sorted = .ok { s with config := sortByKey (Json.sortedMembers config) } := by
  have hkeyed : IsKeyed [("id", Json.str s.id), ("name", .str s.name), ("type", .str s.type),
      ("config", .obj (sortByKey (Json.sortedMembers config)))] := by simp [IsKeyed]
  have hwire := s.ofJson_wireWith (sortByKey (Json.sortedMembers config))
  simp only [Step.wireWith, Step.ofJson, record] at hwire
  simp only [Step.wireWith, Json.sorted, Json.sortedMembers, Step.ofJson, record, field_sortByKey hkeyed]
  exact hwire

theorem Recipe.ofJson_sorted {r : Recipe} {v : Json} (h : r.wire = .ok v) (hx : r.isExact = true)
    (now : Timestamp) : Recipe.ofJson now v.sorted = .ok r.sorted := by
  have hsteps : items Step.ofJson 0 (Json.sortedItems (r.steps.map fun s =>
      s.wireWith (Json.finiteMembers s.config))) = .ok r.sorted.steps := by
    rw [Json.sortedItems_eq_map, List.map_map]
    refine (items_map (fun s _ => s.ofJson_sorted _) 0).trans ?_
    refine congrArg Checked.ok (List.map_congr_left fun s hs => ?_)
    rw [finiteMembers_of_isExact hx hs]
  have hentries := @entries_map String string Json.str (fun _ => rfl) (sortByKey r.vars)
  rw [wire, wireWith] at h
  split at h
  · cases h
  · cases h
    have hkeyed : ∀ a b c d e : Json, IsKeyed [("schema_version", a), ("project", b), ("vars", c), ("steps", d),
        ("updatedAt", e)] := by simp [IsKeyed]
    simp only [Json.sorted, Json.sortedMembers, Recipe.ofJson, record, field_sortByKey (hkeyed _ _ _ _ _),
      renamed_sortByKey (hkeyed _ _ _ _ _)]
    rw [Json.sortedMembers_of_forall fun m hm => ?vars]
    case vars =>
      obtain ⟨v, -, rfl⟩ := List.mem_map.1 hm
      rfl
    simp [field, renamed, renamed?, Members.get?, lookup_cons_eq, string, orEmpty, object, list, hsteps,
      sortByKey_map, hentries, Project.ofJson_sorted, moment, moment.judge, Timestamp.read_text]
    rfl

end Provision
