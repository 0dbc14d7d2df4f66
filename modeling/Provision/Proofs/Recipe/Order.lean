import Mathlib.Data.List.Forall2
import Provision.Proofs.Recipe.RoundTrip
import Provision.Proofs.Script.Dependence
import Provision.Script.Artifacts

/-!
# The order of settings has no effect

Recipes are alike when they differ at most in the order of the settings within each step. So they agree on
the value of every setting (`Recipe.Alike.agree`) and have the same findings, script and notes.
`Recipe.Alike.ofRecipe`: they have the same artifacts, as the canonical text has the settings in the order of
their keys anyway.
-/

namespace Provision

/-- The steps differ at most in the order of their settings. -/
structure Step.Alike (s s' : Step) : Prop where
  id : s.id = s'.id
  name : s.name = s'.name
  type : s.type = s'.type
  config : s.config.Perm s'.config

/-- The recipes differ at most in the order of the settings of each step. -/
structure Recipe.Alike (r r' : Recipe) : Prop where
  schemaVersion : r.schemaVersion = r'.schemaVersion
  project : r.project = r'.project
  vars : r.vars = r'.vars
  steps : List.Forall₂ Step.Alike r.steps r'.steps
  updatedAt : r.updatedAt = r'.updatedAt

theorem Step.Alike.agree {s s' : Step} (h : s.Alike s') (hk : IsKeyed s.config) : s.Agree Eq s' := by
  refine ⟨h.id, h.name, h.type, fun k _ d _ => ?_⟩
  rw [Members.get?, Members.get?, lookup_eq_of_perm hk h.config]
  cases s'.config.lookup d.1 with
  | none => exact .none
  | some v => exact .some rfl

theorem Recipe.Alike.agree {r r' : Recipe} (h : r.Alike r') (hk : r.WellKeyed) : r.Agree Eq r' := by
  have hkey : ∀ s ∈ r.steps, IsKeyed s.config := fun s hs =>
    (Json.wellKeyed_obj.1 (hk.settings s hs)).1
  refine ⟨congrArg Project.name h.project, h.vars, ?_⟩
  exact ((List.forall₂_and_left _ _).2 ⟨hkey, h.steps⟩).imp fun _ _ hs => hs.2.agree hs.1

theorem sameMeaning_of_eq (v w : Json) (h : v = w) : v.SameMeaning w :=
  h ▸ .refl v

namespace Recipe

variable {r r' : Recipe}

theorem Alike.refl (r : Recipe) : r.Alike r :=
  ⟨rfl, rfl, rfl, List.forall₂_same.2 fun _ _ => ⟨rfl, rfl, rfl, .refl _⟩, rfl⟩

theorem alike_ordered (r : Recipe) : r.Alike r.ordered := by
  refine ⟨rfl, rfl, rfl, ?_, rfl⟩
  rw [ordered, mapSettings, List.forall₂_map_right_iff, List.forall₂_same]
  exact fun s _ => ⟨rfl, rfl, rfl, (sortByKey_perm s.config).symm⟩

theorem map_eq_of_forall₂ {α β : Type} {f : α → β} {xs ys : List α}
    (h : List.Forall₂ (fun x y => f x = f y) xs ys) : xs.map f = ys.map f := by
  induction h with
  | nil => rfl
  | cons h _ ih => rw [List.map_cons, List.map_cons, h, ih]

theorem any_eq_of_forall₂ {α : Type} {f : α → Bool} {xs ys : List α}
    (h : List.Forall₂ (fun x y => f x = f y) xs ys) : xs.any f = ys.any f := by
  induction h with
  | nil => rfl
  | cons h _ ih => rw [List.any_cons, List.any_cons, h, ih]

theorem Alike.nestsTooDeep (h : r.Alike r') : r.steps.any Step.nestsTooDeep = r'.steps.any Step.nestsTooDeep :=
  any_eq_of_forall₂ (h.steps.imp fun _ _ hs => hs.config.any_eq)

/-- The canonical text is the same, as it has the settings in the order of their keys anyway. -/
theorem Alike.canonical (h : r.Alike r') (hk : r.WellKeyed) : r.canonical = r'.canonical := by
  have hkeyed : ∀ s ∈ r.steps, IsKeyed s.config := fun s hs =>
    (Json.wellKeyed_obj.1 (hk.settings s hs)).1
  have hsteps := (List.forall₂_and_left _ _).2 ⟨hkeyed, h.steps⟩
  have hwire : (r.steps.map fun s => s.wireWith (sortByKey (Json.finiteMembers s.config))) =
      r'.steps.map fun s => s.wireWith (sortByKey (Json.finiteMembers s.config)) := by
    refine map_eq_of_forall₂ (hsteps.imp fun s s' hs => ?_)
    obtain ⟨hkeyed, hs⟩ := hs
    have hsort : sortByKey (Json.finiteMembers s.config) = sortByKey (Json.finiteMembers s'.config) := by
      rw [Json.finiteMembers_eq_map, Json.finiteMembers_eq_map]
      exact sortByKey_eq_of_perm (hs.config.map _) ((isKeyed_map Json.finite).2 hkeyed)
    rw [hsort, Step.wireWith, Step.wireWith, hs.id, hs.name, hs.type]
  have hjson : r.wireWith sortByKey = r'.wireWith sortByKey := by
    rw [wireWith, wireWith, h.nestsTooDeep, hwire, h.schemaVersion, h.project, h.vars, h.updatedAt]
  rw [Recipe.canonical, Recipe.canonical, hjson]

theorem Alike.check (h : r.Alike r') (hk : r.WellKeyed) : Check.recipe r = Check.recipe r' :=
  Check.recipe_agree sameMeaning_of_eq (h.agree hk)

theorem Alike.script (h : r.Alike r') (hk : r.WellKeyed) (t : Moment) :
    Installer.script r t = Installer.script r' t :=
  (Installer.script_agree sameMeaning_of_eq (h.agree hk) t).eq fun _ _ => SettingsFault.eq_of_agree

theorem Alike.ofRecipe (h : r.Alike r') (hk : r.WellKeyed) (t : Moment) :
    Artifacts.ofRecipe r t = Artifacts.ofRecipe r' t := by
  simp only [Artifacts.ofRecipe, Artifacts.checked, Artifacts.script, Artifacts.canonical, ← h.project,
    ← h.check hk, ← h.script hk t, ← h.canonical hk]

end Recipe

end Provision
