import Provision.Proofs.Recipe.RoundTrip

/-!
# Recipes read again

Whatever the settings of a recipe hold, its canonical text is read as a recipe (`read_canonical_reread`): the same one,
with the settings in the order of their keys and the floating-point numbers in them read again (`Recipe.reread`).
That recipe has a wire form again, as nothing in it is deeper than it was.
-/

namespace Provision.Recipe

open Json

variable {r : Recipe} {v : Json} {text : String}

/-- The settings of a step as they are read from the canonical text. -/
def rereadConfig (config : Members) : Members :=
  rereadMembers (sortByKey (finiteMembers config))

/-- The recipe that the canonical text of a recipe is read as. -/
def reread (r : Recipe) : Recipe :=
  r.mapSettings rereadConfig

theorem reread_wireWith (s : Step) (config : Members) :
    (s.wireWith config).reread = s.wireWith (rereadMembers config) := by
  simp only [Step.wireWith, Json.reread, rereadMembers, mapFloats, mapFloatsMembers]

theorem reread_project (p : Project) : p.wire.reread = p.wire :=
  reread_of_isExact (isExact_project p)

theorem wireWith_reread (h : r.wireWith sortByKey = .ok v) :
    r.wireWith (fun ms => rereadMembers (sortByKey ms)) = .ok v.reread := by
  have hvars : ∀ f : String × String → String × Json, (∀ m, (f m).2.isExact = true) →
      (Json.obj (r.vars.map f)).reread = .obj (r.vars.map f) := fun f hf =>
    reread_of_isExact (isExact_obj.2 (List.forall_mem_map.2 fun m _ => hf m))
  have hsteps : (Json.arr (r.steps.map fun s => s.wireWith (sortByKey (finiteMembers s.config)))).reread =
      .arr (r.steps.map fun s => s.wireWith (rereadMembers (sortByKey (finiteMembers s.config)))) := by
    rw [Json.reread, mapFloats, mapFloatsItems_eq_map, List.map_map]
    exact congrArg Json.arr (List.map_congr_left fun s _ => reread_wireWith s _)
  have hdeep : ¬ r.steps.any Step.nestsTooDeep = true := by
    intro hdeep
    rw [wireWith, if_pos hdeep] at h
    cases h
  obtain rfl := wireWith_eq_ok h
  rw [wireWith, if_neg hdeep]
  simp only [Json.reread, mapFloats, mapFloatsMembers] at hvars hsteps ⊢
  rw [← Json.reread, reread_project, hvars _ fun _ => rfl, hsteps]

theorem read_canonical_reread (hk : r.WellKeyed) (h : r.canonical = .ok text) {blanks : String}
    (hb : ∀ c ∈ blanks.toList, isSpace c = true) :
    ∃ v, Json.read .standard (text ++ blanks) = .ok v ∧ ∀ now, Recipe.ofJson now v = .ok r.reread := by
  obtain ⟨v, hv, hw, rfl⟩ := canonical_eq_ok.1 h
  obtain ⟨hkeyed, hdepth⟩ := keyedWithin_wireWith hk hv
  refine ⟨v.reread, read_toPretty_reread rfl ⟨hkeyed, hw⟩ (Nat.le_trans hdepth (by decide)) hb, fun now => ?_⟩
  exact ofJson_wireWith (wireWith_reread hv) now

theorem height_rereadConfig {config : Members} (h : ∀ m ∈ config, m.2.height ≤ nestingLimit) :
    ∀ m ∈ rereadConfig config, m.2.height ≤ nestingLimit := by
  intro m hm
  obtain ⟨m, hm₁, rfl⟩ := mem_mapFloatsMembers.1 hm
  rw [mem_sortByKey, finiteMembers_eq_mapFloats, mem_mapFloatsMembers] at hm₁
  obtain ⟨m₀, hm₀, rfl⟩ := hm₁
  rw [height, levels_mapFloats (fun _ _ => rfl), levels_mapFloats levels_finiteFloat]
  exact h m₀ hm₀

theorem exists_wire_reread (h : r.canonical = .ok text) : ∃ v, r.reread.wire = .ok v := by
  obtain ⟨v, hv, -, -⟩ := canonical_eq_ok.1 h
  have hshallow : r.reread.steps.any Step.nestsTooDeep = false := by
    rw [reread, mapSettings, List.any_map, List.any_eq_false]
    intro s hs
    rw [Function.comp_apply, Step.nestsTooDeep, Bool.not_eq_true, List.any_eq_false]
    intro m hm
    rw [decide_eq_true_iff, Nat.not_lt]
    exact height_rereadConfig (fun m hm => height_le_of_wireWith hv hs hm) m hm
  rw [wire, wireWith, hshallow]
  exact ⟨_, rfl⟩

end Provision.Recipe
