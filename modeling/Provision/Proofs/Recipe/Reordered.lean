import Provision.Bundle.Export
import Provision.Proofs.Json.Ordered
import Provision.Proofs.Recipe.Order
import Provision.Proofs.Store.Saving

/-!
# Recipes up to the order of keys

Recipes are reordered when they differ at most in the order of keys in their settings, at any depth. Of
those `canonical_eq_iff` tells which have one canonical text, and so one file and one bundle: the ones that
differ at most in the order of the settings of a step. The text has the keys within a setting as they stand.
-/

namespace Provision

/-- The steps differ at most in the order of keys in their settings, at any depth. -/
structure Step.Reordered (s s' : Step) : Prop where
  id : s.id = s'.id
  name : s.name = s'.name
  type : s.type = s'.type
  config : (Json.obj s.config).Alike (.obj s'.config)

/-- The recipes differ at most in the order of keys in their settings, at any depth. -/
structure Recipe.Reordered (r r' : Recipe) : Prop where
  schemaVersion : r.schemaVersion = r'.schemaVersion
  project : r.project = r'.project
  vars : r.vars = r'.vars
  steps : List.Forall₂ Step.Reordered r.steps r'.steps
  updatedAt : r.updatedAt = r'.updatedAt

namespace Json

theorem finiteItems_eq_map (vs : List Json) : finiteItems vs = vs.map finite := by
  induction vs with
  | nil => rfl
  | cons v vs ih => rw [finiteItems, ih, List.map_cons]

mutual

theorem writable_finite : ∀ v : Json, v.finite.writable = v.writable
  | .arr items => writableItems_finite items
  | .obj members => writableMembers_finite members
  | .float x => by
    rw [finite]
    split <;> rfl
  | .null | .bool _ | .int _ | .str _ => rfl

theorem writableItems_finite : ∀ vs : List Json, writableItems (finiteItems vs) = writableItems vs
  | [] => rfl
  | v :: vs => by rw [finiteItems, writableItems, writableItems, writable_finite v, writableItems_finite vs]

theorem writableMembers_finite : ∀ ms : List (String × Json),
    writableMembers (finiteMembers ms) = writableMembers ms
  | [] => rfl
  | (k, v) :: ms => by
    rw [finiteMembers, writableMembers, writableMembers, writable_finite v, writableMembers_finite ms]

end

theorem alikeItems_of_forall₂ {vs ws : List Json} (h : List.Forall₂ Json.Alike vs ws) :
    AlikeItems vs ws := by
  induction h with
  | nil => rfl
  | cons hv _ ih => exact ⟨_, _, rfl, hv, ih⟩

theorem alike_sortByKey {ms ns : Members} (h : (obj ms).Alike (obj ns)) :
    (obj (sortByKey ms)).Alike (obj (sortByKey ns)) := by
  obtain ⟨ns', reordered, heq, hperm, hms⟩ := h
  obtain rfl := obj.inj heq
  obtain ⟨reordered', hms', hperm'⟩ := List.perm_comp_forall₂ (sortByKey_perm ms) (alikeMembers_iff.1 hms)
  have hsort : reordered'.Perm (sortByKey ns) :=
    (hperm'.trans hperm).trans (sortByKey_perm ns).symm
  exact ⟨sortByKey ns, reordered', rfl, hsort, alikeMembers_iff.2 hms'⟩

end Json

namespace Recipe

variable {r r' : Recipe}

/-- The wire form with the settings in the order of their keys, before numbers that have no text are
replaced. -/
def fullWire (r : Recipe) : Json :=
  .obj [
    ("schema_version", .str r.schemaVersion),
    ("project", r.project.wire),
    ("vars", .obj (r.vars.map fun (k, v) => (k, .str v))),
    ("steps", .arr (r.steps.map fun s => s.wireWith (sortByKey s.config))),
    ("updatedAt", .str r.updatedAt.text)]

theorem finite_fullWire (r : Recipe) :
    r.fullWire.finite = .obj [
      ("schema_version", .str r.schemaVersion),
      ("project", r.project.wire),
      ("vars", .obj (r.vars.map fun (k, v) => (k, .str v))),
      ("steps", .arr (r.steps.map fun s => s.wireWith (sortByKey (Json.finiteMembers s.config)))),
      ("updatedAt", .str r.updatedAt.text)] := by
  have htarget : Json.finiteItems (r.project.target.map .str) = r.project.target.map .str := by
    rw [Json.finiteItems_eq_map, List.map_map]
    rfl
  have hvars : Json.finiteMembers (r.vars.map fun (k, v) => (k, .str v)) =
      r.vars.map fun (k, v) => (k, .str v) := by
    rw [Json.finiteMembers_eq_map, List.map_map]
    rfl
  have hstep : ∀ s : Step, (s.wireWith (sortByKey s.config)).finite =
      s.wireWith (sortByKey (Json.finiteMembers s.config)) := by
    intro s
    have hsort : Json.finiteMembers (sortByKey s.config) = sortByKey (Json.finiteMembers s.config) := by
      rw [Json.finiteMembers_eq_map, Json.finiteMembers_eq_map, sortByKey_map]
    simp only [Step.wireWith, Json.finite, Json.finiteMembers, hsort]
  have hsteps : Json.finiteItems (r.steps.map fun s => s.wireWith (sortByKey s.config)) =
      r.steps.map fun s => s.wireWith (sortByKey (Json.finiteMembers s.config)) := by
    rw [Json.finiteItems_eq_map, List.map_map]
    exact List.map_congr_left fun s _ => hstep s
  simp only [fullWire, Project.wire, Json.finite, Json.finiteMembers, htarget, hvars, hsteps]

theorem wireWith_sortByKey (r : Recipe) : r.wireWith sortByKey =
    if r.steps.any Step.nestsTooDeep then .error .tooDeep else .ok r.fullWire.finite := by
  rw [wireWith, finite_fullWire]

theorem wellKeyed_fullWire (hk : r.WellKeyed) : r.fullWire.WellKeyed := by
  have hproject : r.project.wire.WellKeyed := by
    have htarget : (Json.arr (r.project.target.map .str)).WellKeyed := by
      refine Json.wellKeyed_arr.2 fun v hv => ?_
      obtain ⟨t, -, rfl⟩ := List.mem_map.1 hv
      trivial
    refine Json.wellKeyed_obj.2 ⟨by simp [IsKeyed], ?_⟩
    simp only [List.forall_mem_cons]
    exact ⟨trivial, trivial, trivial, htarget, List.forall_mem_nil _⟩
  have hvars : (Json.obj (r.vars.map fun (k, v) => (k, .str v))).WellKeyed := by
    refine Json.wellKeyed_obj.2 ⟨(isKeyed_map Json.str).2 hk.vars, fun m hm => ?_⟩
    obtain ⟨⟨k, v⟩, -, rfl⟩ := List.mem_map.1 hm
    trivial
  have hsteps : (Json.arr (r.steps.map fun s => s.wireWith (sortByKey s.config))).WellKeyed := by
    refine Json.wellKeyed_arr.2 fun v hv => ?_
    obtain ⟨s, hs, rfl⟩ := List.mem_map.1 hv
    obtain ⟨hkeyed, hvalues⟩ := Json.wellKeyed_obj.1 (hk.settings s hs)
    have hconfig : (Json.obj (sortByKey s.config)).WellKeyed :=
      Json.wellKeyed_obj.2 ⟨isKeyed_sortByKey.2 hkeyed, fun m hm => hvalues m (mem_sortByKey.1 hm)⟩
    refine Json.wellKeyed_obj.2 ⟨by simp [IsKeyed], ?_⟩
    simp only [List.forall_mem_cons]
    exact ⟨trivial, trivial, trivial, hconfig, List.forall_mem_nil _⟩
  refine Json.wellKeyed_obj.2 ⟨by simp [IsKeyed], ?_⟩
  simp only [List.forall_mem_cons]
  exact ⟨trivial, hproject, hvars, hsteps, trivial, List.forall_mem_nil _⟩

theorem Reordered.fullWire (h : r.Reordered r') : r.fullWire.Alike r'.fullWire := by
  have hsteps : List.Forall₂ Json.Alike (r.steps.map fun s => s.wireWith (sortByKey s.config))
      (r'.steps.map fun s => s.wireWith (sortByKey s.config)) := by
    refine List.forall₂_map_left_iff.2 (List.forall₂_map_right_iff.2 (h.steps.imp fun s s' hs => ?_))
    rw [Step.wireWith, Step.wireWith, hs.id, hs.name, hs.type]
    exact ⟨_, _, rfl, .refl _, _, _, rfl, .refl _, _, _, rfl, .refl _, _, _, rfl, .refl _,
      _, _, rfl, Json.alike_sortByKey hs.config, rfl⟩
  rw [Recipe.fullWire, Recipe.fullWire, h.schemaVersion, h.project, h.vars, h.updatedAt]
  exact ⟨_, _, rfl, .refl _, _, _, rfl, .refl _, _, _, rfl, .refl _, _, _, rfl, .refl _,
    _, _, rfl, ⟨_, rfl, Json.alikeItems_of_forall₂ hsteps⟩, _, _, rfl, .refl _, rfl⟩

theorem Reordered.alike_of_fullWire (h : r.Reordered r') (heq : r.fullWire = r'.fullWire) : r.Alike r' := by
  have hsteps : (r.steps.map fun s => s.wireWith (sortByKey s.config)) =
      r'.steps.map fun s => s.wireWith (sortByKey s.config) := by
    simp only [Recipe.fullWire, Json.obj.injEq, List.cons.injEq, Prod.mk.injEq, Json.arr.injEq] at heq
    exact heq.2.2.2.1.2
  have hall : List.Forall₂ (fun s s' : Step => s.wireWith (sortByKey s.config) =
      s'.wireWith (sortByKey s'.config)) r.steps r'.steps :=
    List.forall₂_map_right_iff.1 (List.forall₂_map_left_iff.1 (hsteps ▸ List.forall₂_same.2 fun _ _ => rfl))
  refine ⟨h.schemaVersion, h.project, h.vars, ?_, h.updatedAt⟩
  refine List.Forall₂.mp (fun s s' hs hwire => ?_) h.steps hall
  simp only [Step.wireWith, Json.obj.injEq, List.cons.injEq, Prod.mk.injEq] at hwire
  have hsort : sortByKey s.config = sortByKey s'.config := hwire.2.2.2.1.2
  have hperm : s.config.Perm s'.config :=
    (sortByKey_perm s.config).symm.trans (hsort ▸ sortByKey_perm s'.config)
  exact ⟨hs.id, hs.name, hs.type, hperm⟩

theorem nestsTooDeep_eq (s : Step) :
    s.nestsTooDeep = decide (nestingLimit < Json.levelsOfMembers 1 s.config) := by
  rw [Bool.eq_iff_iff, decide_eq_true_eq, ← Nat.not_le, Json.levelsOfMembers_le]
  simp only [Step.nestsTooDeep, List.any_eq_true, decide_eq_true_eq, not_forall, Nat.not_le, exists_prop]
  rfl

theorem Reordered.nestsTooDeep (h : r.Reordered r') (hk : r.WellKeyed) :
    r.steps.any Step.nestsTooDeep = r'.steps.any Step.nestsTooDeep := by
  have hsteps := (List.forall₂_and_left _ _).2 ⟨hk.settings, h.steps⟩
  refine any_eq_of_forall₂ (hsteps.imp fun s s' hs => ?_)
  have hlevels := (hs.2.config.sameMeasures hs.1).levels 1
  rw [nestsTooDeep_eq, nestsTooDeep_eq, Nat.succ.inj hlevels]

theorem canonical_eq (r : Recipe) : r.canonical =
    if r.steps.any Step.nestsTooDeep then .error .tooDeep
    else if r.fullWire.writable then .ok (r.fullWire.finite.toPretty .unicode) else .error .tooManyDigits := by
  rw [canonical, wireWith_sortByKey]
  split
  · rfl
  · rw [← Json.writable_finite]
    rfl

theorem fullWire_of_canonical {text : String} (h : r.canonical = .ok text) :
    r.fullWire.finite.toPretty .unicode = text := by
  rw [canonical_eq] at h
  split at h
  · cases h
  · split at h
    · exact Except.ok.inj h
    · cases h

/-- Reordered recipes have one canonical text just where they differ at most in the order of the settings of a
step, or where neither has a text. -/
theorem canonical_eq_iff (h : r.Reordered r') (hk : r.WellKeyed) :
    r.canonical = r'.canonical ↔ r.Alike r' ∨ ∃ fault, r.canonical = .error fault := by
  have hwritable := (h.fullWire.sameMeasures (wellKeyed_fullWire hk)).writable
  constructor
  · intro heq
    cases htext : r.canonical with
    | error fault => exact .inr ⟨fault, rfl⟩
    | ok text =>
      left
      have htext' := heq.symm.trans htext
      have hpretty := (fullWire_of_canonical htext).trans (fullWire_of_canonical htext').symm
      exact h.alike_of_fullWire (h.fullWire.eq_of_toPretty (wellKeyed_fullWire hk) hpretty)
  · rintro (halike | ⟨fault, hfault⟩)
    · exact halike.canonical hk
    · have hwritable := (h.fullWire.sameMeasures (wellKeyed_fullWire hk)).writable
      rw [canonical_eq, h.nestsTooDeep hk, hwritable] at hfault ⊢
      rw [canonical_eq]
      split at hfault
      · rename_i hdeep
        rw [if_pos hdeep, if_pos hdeep]
      · split at hfault
        · cases hfault
        · rename_i hdeep hdigits
          rw [if_neg hdeep, if_neg hdigits, if_neg hdeep, if_neg hdigits]

/-! ### Files and bundles -/

theorem Alike.dated (h : r.Alike r') (t : Timestamp) :
    Alike { r with updatedAt := t } { r' with updatedAt := t } :=
  ⟨h.schemaVersion, h.project, h.vars, h.steps, rfl⟩

theorem Alike.checkedRecord (h : r.Alike r') (issues : List Issue) :
    Compile.checkedRecord r issues = Compile.checkedRecord r' issues := by
  rw [Compile.checkedRecord, Compile.checkedRecord, h.project, h.steps.length_eq]

section

variable (h : r.Alike r') (hk : r.WellKeyed)

include h hk

theorem Alike.saving (s : Store) (t : Timestamp) : s.saving r t = s.saving r' t := by
  have htext := (h.dated t).canonical ⟨hk.vars, hk.settings⟩
  rw [Store.saving, Store.saving, htext, h.project]

theorem Alike.saveRecipe (s : Store) (w : Workspace) :
    ((s.saveRecipe r).run w).2 = ((s.saveRecipe r').run w).2 := by
  have hrefusal : Store.refusal? r = Store.refusal? r' := by
    rw [Store.refusal?, Store.refusal?, h.project]
  cases hr : Store.refusal? r with
  | some f =>
    rw [Store.run_saveRecipe_refused hr, Store.run_saveRecipe_refused (hrefusal ▸ hr)]
  | none =>
    rcases hrun : (s.saving r w.now).run .none w.disk with ⟨result, d⟩
    have hrun' : (s.saving r' w.now).run .none w.disk = (result, d) := by rw [← h.saving hk, hrun]
    rw [Store.run_saveRecipe_eq hr hrun, Store.run_saveRecipe_eq (hrefusal ▸ hr) hrun', h.saving hk]

theorem Alike.records : Compile.records r = Compile.records r' := by
  have hcompiled : ∀ issues, Compile.compiledRecord r issues = Compile.compiledRecord r' issues := by
    intro issues
    rw [Compile.compiledRecord, Compile.compiledRecord, h.project, h.steps.length_eq]
  have hscript : ∀ fs fs', List.Forall₂ Installer.SameBlock fs fs' →
      Compile.scriptRecord r fs = Compile.scriptRecord r' fs' := by
    intro fs fs' hfs
    rw [Compile.scriptRecord, Compile.scriptRecord, h.steps.length_eq, Installer.commands_congr hfs]
  have hfragments := Installer.fragments_agree sameMeaning_of_eq (h.agree hk).steps
  rw [Compile.records, Compile.records, ← h.check hk, ← h.vars, ← h.canonical hk]
  simp only [h.checkedRecord, hcompiled]
  generalize Installer.fragments r.steps = x at hfragments
  generalize Installer.fragments r'.steps = y at hfragments
  cases x <;> cases y
  case error.error => rfl
  case ok.ok fs fs' =>
    dsimp only
    rw [hscript fs fs' hfragments]
  all_goals exact hfragments.elim

theorem Alike.compile (t : Option Moment) : Compile.compile r t = Compile.compile r' t := by
  have hartifacts : ∀ t, Artifacts.ofRecipe r t = Artifacts.ofRecipe r' t := fun t => h.ofRecipe hk t
  simp only [Compile.compile, h.records hk, hartifacts]

theorem Alike.exportRecipe (s : Store) (q : Bundle.Request) (format : Bundle.Format) :
    Bundle.exportRecipe s q r format = Bundle.exportRecipe s q r' format := by
  have hcheck : Compile.check r = Compile.check r' := by
    simp only [Compile.check, ← h.check hk, h.checkedRecord]
  have hinstall : ∀ a target, Bundle.install s r a target format = Bundle.install s r' a target format := by
    intro a target
    simp only [Bundle.install, Store.writeBundle, h.project]
  have hwrite : ∀ issues target, Bundle.writeTo s r issues target format =
      Bundle.writeTo s r' issues target format := by
    intro issues target
    simp only [Bundle.writeTo, h.compile hk, hinstall, h.project]
  simp only [Bundle.exportRecipe, hcheck, hwrite, Bundle.refusedRecord, Bundle.targetOf, h.project]

end

/-- Reordered recipes have one canonical text just where they differ at most in the order of the settings of a
step, or have none. Then a save of either leaves the same files, and an export of either the same bundle. -/
theorem reordered_text_iff (h : r.Reordered r') (hk : r.WellKeyed) :
    (r.canonical = r'.canonical ↔ r.Alike r' ∨ ∃ fault, r.canonical = .error fault) ∧
      (r.Alike r' →
        (∀ (s : Store) w, ((s.saveRecipe r).run w).2 = ((s.saveRecipe r').run w).2) ∧
        ∀ s q format, Bundle.exportRecipe s q r format = Bundle.exportRecipe s q r' format) := by
  refine ⟨canonical_eq_iff h hk, fun halike => ⟨fun s w => ?_, fun s q format => ?_⟩⟩
  · exact halike.saveRecipe hk s w
  · exact halike.exportRecipe hk s q format

/-- A recipe of one step, which has a list of objects among its settings. -/
def sampleListing (settings : Members) : Recipe where
  schemaVersion := currentSchema
  project := { id := "p", name := "n" }
  vars := []
  steps := [{ type := "copy", config := settings }]
  updatedAt := .epoch

theorem reordered_text_iff_settings :
    let r := sampleListing [("src", .str "b"), ("dest", .arr [.obj [("x", .int 2), ("y", .int 1)]])]
    let r' := sampleListing [("dest", .arr [.obj [("x", .int 2), ("y", .int 1)]]), ("src", .str "b")]
    r.Reordered r' ∧ r.WellKeyed ∧ r.canonical = r'.canonical := by
  intro r r'
  have hperm : List.Perm [("src", Json.str "b"), ("dest", .arr [.obj [("x", .int 2), ("y", .int 1)]])]
      [("dest", .arr [.obj [("x", .int 2), ("y", .int 1)]]), ("src", .str "b")] := .swap _ _ _
  have hr : r.Reordered r' :=
    ⟨rfl, rfl, rfl, .cons ⟨rfl, rfl, rfl, _, _, rfl, hperm, Json.alikeMembers_refl _⟩ .nil, rfl⟩
  have hk : r.WellKeyed :=
    ⟨isKeyed_nil, by simp [r, sampleListing, Json.WellKeyed, Json.WellKeyedMembers, Json.WellKeyedItems, IsKeyed]⟩
  have halike : r.Alike r' := ⟨rfl, rfl, rfl, .cons ⟨rfl, rfl, rfl, hperm⟩ .nil, rfl⟩
  exact ⟨hr, hk, (reordered_text_iff hr hk).1.2 (.inl halike)⟩

/-- The keys within a setting are printed as they stand, so equal recipes have different texts. -/
theorem reordered_text_differs :
    let r := sampleListing [("a", .obj [("y", .int 1), ("x", .int 2)])]
    let r' := sampleListing [("a", .obj [("x", .int 2), ("y", .int 1)])]
    r.Reordered r' ∧ r.WellKeyed ∧ r.canonical ≠ r'.canonical := by
  intro r r'
  have hinner : (Json.obj [("y", .int 1), ("x", .int 2)]).Alike (.obj [("x", .int 2), ("y", .int 1)]) :=
    ⟨_, [("y", .int 1), ("x", .int 2)], rfl, .swap _ _ _, Json.alikeMembers_refl _⟩
  have hr : r.Reordered r' :=
    ⟨rfl, rfl, rfl, .cons ⟨rfl, rfl, rfl, _, _, rfl, .refl _, _, _, rfl, hinner, rfl⟩ .nil, rfl⟩
  have hk : r.WellKeyed :=
    ⟨isKeyed_nil, by simp [r, sampleListing, Json.WellKeyed, Json.WellKeyedMembers, IsKeyed]⟩
  refine ⟨hr, hk, fun heq => ?_⟩
  obtain ⟨text, htext⟩ := IsStorable.canonical (r := r) ⟨by decide, hk, by decide, by decide⟩
  rcases (canonical_eq_iff hr hk).1 heq with halike | ⟨fault, hfault⟩
  · -- With one setting, the settings would have to be the same.
    obtain ⟨hstep, -⟩ := List.forall₂_cons.1 halike.steps
    have hsame := List.singleton_perm.1 hstep.config
    simp at hsame
  · cases htext.symm.trans hfault

end Recipe

end Provision
