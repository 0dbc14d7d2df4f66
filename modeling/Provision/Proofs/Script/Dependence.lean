import Mathlib.Data.List.Forall2
import Provision.Proofs.Json.Alike
import Provision.Proofs.Outcome
import Provision.Script.Installer

/-!
# What findings and scripts depend on

Recipes agree (`Recipe.Agree`) when they have the same project name, variables and steps, but for the
settings: of those only the declared ones are compared, by a relation `E` under which values mean the same.
Everything in a script is looked up under declared keys, and so is everything that is checked, so recipes
that agree have the same findings (`Check.recipe_agree`) and the same script, or faults that differ at most
in the values they show (`Installer.script_agree`).

`declared_settings_decide` is the case of values that are equal up to the order of keys at every depth.
-/

namespace Provision

variable {E : Json → Json → Prop}

/-- Each setting that the kind declares is absent from both, or in both with values that `E` relates. -/
def SettingsAgree (E : Json → Json → Prop) (k : Kind) (config config' : Members) : Prop :=
  ∀ d ∈ k.settings, Option.Rel E (config.get? d.1) (config'.get? d.1)

/-- The steps agree on every setting that their kind declares. No setting of an unknown type counts. -/
structure Step.Agree (E : Json → Json → Prop) (s s' : Step) : Prop where
  id : s.id = s'.id
  name : s.name = s'.name
  type : s.type = s'.type
  settings : ∀ k, s.kind? = some k → SettingsAgree E k s.config s'.config

/-- The recipes agree on everything that is compiled. -/
structure Recipe.Agree (E : Json → Json → Prop) (r r' : Recipe) : Prop where
  project : r.project.name = r'.project.name
  vars : r.vars = r'.vars
  steps : List.Forall₂ (Step.Agree E) r.steps r'.steps

/-- The defects are at the same place and of the same kind. -/
structure Defect.Agree (E : Json → Json → Prop) (d d' : Defect) : Prop where
  place : d.place = d'.place
  complaint : d.complaint = d'.complaint
  value : E d.value d'.value

/-- The faults are the same but for the values they show. -/
def SettingsFault.Agree (E : Json → Json → Prop) : SettingsFault → SettingsFault → Prop
  | .tooDeep, .tooDeep => True
  | .defects record ds, .defects record' ds' =>
    record = record' ∧ List.Forall₂ (Defect.Agree E) ds ds'
  | _, _ => False

theorem Step.Agree.kind {s s' : Step} (h : s.Agree E s') : s.kind? = s'.kind? := by
  rw [Step.kind?, Step.kind?, h.type]

theorem Defect.eq_of_agree {d d' : Defect} (h : d.Agree Eq d') : d = d' := by
  obtain ⟨place, complaint, value⟩ := d
  obtain ⟨rfl, rfl, rfl⟩ := h
  rfl

theorem SettingsFault.eq_of_agree {f f' : SettingsFault} (h : f.Agree Eq f') : f = f' := by
  cases f <;> cases f'
  case tooDeep.tooDeep => rfl
  case defects.defects record ds record' ds' =>
    obtain ⟨hrecord, hds⟩ := h
    have heq : List.Forall₂ Eq ds ds' := hds.imp fun _ _ => Defect.eq_of_agree
    rw [List.forall₂_eq_eq_eq] at heq
    rw [hrecord, heq]
  all_goals exact h.elim

theorem SettingsFault.Agree.imp {E' : Json → Json → Prop} (hE : ∀ v w, E v w → E' v w)
    {f f' : SettingsFault} (h : f.Agree E f') : f.Agree E' f' := by
  cases f <;> cases f'
  case tooDeep.tooDeep => exact h
  case defects.defects =>
    exact ⟨h.1, h.2.imp fun d d' hd => ⟨hd.place, hd.complaint, hE _ _ hd.value⟩⟩
  all_goals exact h.elim

section

variable {k : Kind} {key : String} {config config' : Members}

theorem SettingsAgree.get (h : SettingsAgree E k config config')
    (hkey : key ∈ k.settings.map (·.1)) : Option.Rel E (config.get? key) (config'.get? key) := by
  obtain ⟨d, hd, rfl⟩ := List.mem_map.1 hkey
  exact h d hd

theorem SettingsAgree.has (h : SettingsAgree E k config config')
    (hkey : key ∈ k.settings.map (·.1)) : config.has key = config'.has key := by
  have hget := h.get hkey
  rw [Members.has, Members.has]
  generalize config.get? key = o at hget ⊢
  generalize config'.get? key = o' at hget ⊢
  cases hget <;> rfl

theorem sameMeaning_getD (hE : ∀ v w, E v w → v.SameMeaning w) {o o' : Option Json}
    (h : Option.Rel E o o') : (o.getD .null).SameMeaning (o'.getD .null) := by
  cases h with
  | none => exact .refl _
  | some h => exact hE _ _ h

theorem Kind.declared_of_required (k : Kind) : ∀ key ∈ k.required, key ∈ k.settings.map (·.1) := by
  cases k <;> decide

theorem Kind.declared_mode {k : Kind} (h : k.modes.isEmpty = false) :
    "mode" ∈ k.settings.map (·.1) := by
  cases k <;> first | decide | cases h

namespace Check

variable (hE : ∀ v w, E v w → v.SameMeaning w)

include hE

theorem isUnset_agree (h : Option.Rel E (config.get? key) (config'.get? key)) :
    isUnset config key = isUnset config' key := by
  rw [isUnset, isUnset]
  generalize config.get? key = o at h ⊢
  generalize config'.get? key = o' at h ⊢
  cases h with
  | none => rfl
  | some h => exact congrArg (Except.map (· == "")) (hE _ _ h).text

theorem unset_agree {keys : List String}
    (h : ∀ key ∈ keys, Option.Rel E (config.get? key) (config'.get? key)) :
    unset config keys = unset config' keys := by
  induction keys with
  | nil => rfl
  | cons key keys ih =>
    rw [unset, unset, isUnset_agree hE (h key List.mem_cons_self),
      ih fun key' hkey => h key' (List.mem_cons_of_mem _ hkey)]

theorem hasBadMode_agree (h : SettingsAgree E k config config') :
    hasBadMode k config = hasBadMode k config' := by
  rw [hasBadMode, hasBadMode]
  split
  · rfl
  · rename_i hmodes
    have hmode := h.get (Kind.declared_mode (eq_false_of_ne_true hmodes))
    rw [(sameMeaning_getD hE hmode).text]

theorem advice_agree (h : SettingsAgree E k config config') : advice k config = advice k config' := by
  have hbackup : "backup" ∈ k.settings.map (·.1) →
      advice .appendLines config = advice .appendLines config' := by
    intro hkey
    rw [advice, advice]
    have hget := h.get hkey
    generalize config.get? "backup" = o at hget
    generalize config'.get? "backup" = o' at hget
    cases hget with
    | none => rfl
    | some hv => simp only [(hE _ _ hv).flag]
  cases k
  case extractTarGz | extractZip | runCmd => rw [advice, advice, h.has (by decide)]
  case appendLines | deleteLines | replace => exact hbackup (by decide)
  all_goals rfl

theorem step_agree {s s' : Step} (h : s.Agree E s') : step s = step s' := by
  rw [step, step, ← h.kind, ← h.id, ← h.type]
  cases hk : s.kind? with
  | none => rfl
  | some k =>
    have hs := h.settings k hk
    have hmissing := unset_agree hE fun key hkey => hs.get (k.declared_of_required key hkey)
    simp only [hmissing, hasBadMode_agree hE hs, advice_agree hE hs]

theorem steps_agree {ss ss' : List Step} (h : List.Forall₂ (Step.Agree E) ss ss') :
    steps ss = steps ss' := by
  induction h with
  | nil => rfl
  | cons hs _ ih => rw [steps, steps, step_agree hE hs, ih]

theorem recipe_agree {r r' : Recipe} (h : r.Agree E r') : recipe r = recipe r' :=
  steps_agree hE h.steps

end Check

/-! ### Readings -/

theorem Form.read_none (form : Form) : ∃ s, form.read none = .ok s := by
  cases form <;> exact ⟨_, rfl⟩

section

variable (hE : ∀ v w, E v w → v.SameMeaning w)

include hE

theorem Form.read_agree (form : Form) {o o' : Option Json} (h : Option.Rel E o o') :
    form.read o = form.read o' := by
  have hsame := sameMeaning_getD hE h
  cases form <;> simp only [Form.read, hsame.text, hsame.flag, hsame.words, hsame.lines]

end

namespace Settings

theorem defects_agree (ds : List (String × Form))
    (h : ∀ d ∈ ds, Option.Rel E (config.get? d.1) (config'.get? d.1)) :
    let readings := ds.map fun (key, form) => (key, form.read (config.get? key))
    List.Forall₂ (Defect.Agree E) (readings.filterMap (defect? config))
      (readings.filterMap (defect? config')) := by
  induction ds with
  | nil => exact .nil
  | cons d ds ih =>
    obtain ⟨key, form⟩ := d
    have hrest := ih fun d hd => h d (List.mem_cons_of_mem _ hd)
    have hget : Option.Rel E (config.get? key) (config'.get? key) := h (key, form) List.mem_cons_self
    simp only [List.map_cons, List.filterMap_cons]
    cases hr : form.read (config.get? key) with
    | ok s => exact hrest
    | error e =>
      cases e with
      | tooDeep => exact hrest
      | tooManyDigits =>
        refine .cons ⟨rfl, rfl, ?_⟩ hrest
        cases hv : config.get? key with
        | none =>
          obtain ⟨s, hs⟩ := form.read_none
          rw [hv, hs] at hr
          cases hr
        | some v =>
          rw [hv] at hget
          cases hw : config'.get? key with
          | none =>
            rw [hw] at hget
            cases hget
          | some w =>
            rw [hw] at hget
            cases hget with
            | some hvw => exact hvw

variable (hE : ∀ v w, E v w → v.SameMeaning w)

include hE

theorem read_agree (h : SettingsAgree E k config config') :
    SameOutcome (SettingsFault.Agree E) (read k config) (read k config') := by
  have hreadings : (k.settings.map fun (key, form) => (key, form.read (config.get? key))) =
      k.settings.map fun (key, form) => (key, form.read (config'.get? key)) :=
    List.map_congr_left fun d hd => Prod.ext rfl (d.2.read_agree hE (h d hd))
  have hdefects := defects_agree k.settings h
  simp only [read, ← hreadings]
  generalize (k.settings.map fun (key, form) => (key, form.read (config.get? key))) = readings
    at hdefects ⊢
  change List.Forall₂ _ (readings.filterMap (defect? config)) (readings.filterMap (defect? config'))
    at hdefects
  split
  · exact trivial
  · generalize readings.filterMap (defect? config) = ds at hdefects ⊢
    generalize readings.filterMap (defect? config') = ds' at hdefects ⊢
    cases hdefects with
    | nil => exact rfl
    | cons hd hds => exact ⟨rfl, .cons hd hds⟩

end Settings

end

section

variable (hE : ∀ v w, E v w → v.SameMeaning w)

include hE

theorem Fragment.ofStep_agree {s s' : Step} (h : s.Agree E s') :
    SameOutcome (SettingsFault.Agree E) (ofStep s) (ofStep s') := by
  rw [ofStep, ofStep, ← h.kind, ← h.type]
  cases hk : s.kind? with
  | none => exact rfl
  | some k =>
    have haction : SameOutcome (SettingsFault.Agree E) (Action.read k s.config)
        (Action.read k s'.config) :=
      (Settings.read_agree hE (h.settings k hk)).map fun S S' hS => congrArg (Action.ofSettings · k) hS
    exact haction.map fun a a' ha => by rw [ha]

end

namespace Installer

/-- Blocks of steps that show the same in a script. -/
structure SameBlock (p p' : Step × Fragment) : Prop where
  id : p.1.id = p'.1.id
  name : p.1.name = p'.1.name
  type : p.1.type = p'.1.type
  fragment : p.2 = p'.2

theorem stepSections_congr {fs fs' : List (Step × Fragment)} (h : List.Forall₂ SameBlock fs fs')
    (total index : Nat) : stepSections total index fs = stepSections total index fs' := by
  induction h generalizing index with
  | nil => rfl
  | @cons p p' fs fs' hp _ ih =>
    obtain ⟨s, f⟩ := p
    obtain ⟨s', f'⟩ := p'
    obtain ⟨hid, hname, htype, hf⟩ := hp
    simp only at hid hname htype hf
    simp only [stepSections, stepSection, hid, hname, htype, hf, ih]

theorem commands_congr {fs fs' : List (Step × Fragment)} (h : List.Forall₂ SameBlock fs fs') :
    commands fs = commands fs' := by
  have hr : fs.flatMap (fun p => p.2.requires) = fs'.flatMap fun p => p.2.requires := by
    induction h with
    | nil => rfl
    | cons hp _ ih => rw [List.flatMap_cons, List.flatMap_cons, ih, hp.fragment]
  rw [commands, commands, hr]

theorem assemble_agree {r r' : Recipe} (h : r.Agree E r') (t : Moment)
    {fs fs' : List (Step × Fragment)} (hfs : List.Forall₂ SameBlock fs fs') :
    assemble r t fs = assemble r' t fs' := by
  have hs := stepSections_congr hfs r'.steps.length 1
  unfold assemble bannerText
  rw [h.project, h.vars, h.steps.length_eq, commands_congr hfs]
  dsimp only
  rw [hs]

variable (hE : ∀ v w, E v w → v.SameMeaning w)

include hE

theorem fragments_agree {ss ss' : List Step} (h : List.Forall₂ (Step.Agree E) ss ss') :
    RelatedOutcome (SettingsFault.Agree E) (List.Forall₂ SameBlock) (fragments ss)
      (fragments ss') := by
  induction h with
  | nil => exact .nil
  | cons hs _ ih =>
    rw [fragments, fragments]
    refine (Fragment.ofStep_agree hE hs).bind fun f f' hf => ih.bind fun fs fs' hfs => ?_
    exact .cons ⟨hs.id, hs.name, hs.type, hf⟩ hfs

theorem script_agree {r r' : Recipe} (h : r.Agree E r') (t : Moment) :
    SameOutcome (SettingsFault.Agree E) (script r t) (script r' t) :=
  (fragments_agree hE h.steps).map fun _ _ hfs => assemble_agree h t hfs

end Installer

/-- Values that agree up to the order of keys mean the same where no object has a key twice. -/
theorem Step.Agree.keyed {s s' : Step} (h : s.Agree Json.Alike s')
    (hk : (Json.obj s.config).WellKeyed) : s.Agree (fun v w => v.WellKeyed ∧ v.Alike w) s' := by
  refine ⟨h.id, h.name, h.type, fun k hkind d hd => ?_⟩
  have hget := h.settings k hkind d hd
  have hvalue : ∀ v, s.config.get? d.1 = some v → v.WellKeyed := fun v hv =>
    (Json.wellKeyed_obj.1 hk).2 (d.1, v) (mem_of_lookup hv)
  generalize s.config.get? d.1 = o at hget hvalue ⊢
  generalize s'.config.get? d.1 = o' at hget ⊢
  cases hget with
  | none => exact .none
  | some hvw => exact .some ⟨hvalue _ rfl, hvw⟩

/-- Recipes with the same project name, variables and steps have the same findings and the same script if
they agree on the settings that the kinds of their steps declare, up to the order of keys at every depth. If
there is none, both fail alike. All else that recipes hold has no effect. -/
theorem declared_settings_decide {r r' : Recipe} (h : r.Agree Json.Alike r')
    (hk : ∀ s ∈ r.steps, (Json.obj s.config).WellKeyed) (t : Moment) :
    Check.recipe r = Check.recipe r' ∧
      SameOutcome (SettingsFault.Agree Json.Alike) (Installer.script r t)
        (Installer.script r' t) := by
  have hE : ∀ v w : Json, v.WellKeyed ∧ v.Alike w → v.SameMeaning w := fun _ _ hvw =>
    hvw.2.sameMeaning hvw.1
  have hr : r.Agree (fun v w => v.WellKeyed ∧ v.Alike w) r' :=
    ⟨h.project, h.vars, ((List.forall₂_and_left _ _).2 ⟨hk, h.steps⟩).imp fun _ _ hs => hs.2.keyed hs.1⟩
  have hfault : ∀ f f' : SettingsFault, f.Agree (fun v w => v.WellKeyed ∧ v.Alike w) f' →
      f.Agree Json.Alike f' := fun _ _ hf => hf.imp fun _ _ hvw => hvw.2
  exact ⟨Check.recipe_agree hE hr, (Installer.script_agree hE hr t).imp hfault⟩

/-- A recipe with a step that has a list of objects, one with a flag, and one of an unknown type. -/
def plainRecipe : Recipe where
  schemaVersion := Recipe.currentSchema
  project := { id := "p", name := "demo" }
  vars := [("LOG_DIR", "/var/log"), ("A", "1")]
  steps := [
    ⟨"s1", "hosts", "append_lines", [("file", .str "/etc/hosts"),
      ("lines", .arr [.obj [("a", .int 1), ("b", .obj [("x", .null), ("y", .bool true)])]])]⟩,
    ⟨"s2", "copy", "copy", [("src", .str "a"), ("dest", .str "b"), ("overwrite", .str "yes")]⟩,
    ⟨"s3", "odd", "teleport", [("to", .str "moon")]⟩]
  updatedAt := .epoch

/-- The same installer with other keys, another order of keys, and all else different. -/
def plainRecipe.annotated : Recipe where
  schemaVersion := "9.9"
  project := { id := "q", name := "demo", description := "another", target := ["moon"] }
  vars := [("LOG_DIR", "/var/log"), ("A", "1")]
  steps := [
    ⟨"s1", "hosts", "append_lines", [("note", .int 7),
      ("lines", .arr [.obj [("b", .obj [("y", .bool true), ("x", .null)]), ("a", .int 1)]]),
      ("file", .str "/etc/hosts")]⟩,
    ⟨"s2", "copy", "copy", [("overwrite", .str "yes"), ("dest", .str "b"), ("src", .str "a"),
      ("Src", .str "c")]⟩,
    ⟨"s3", "odd", "teleport", [("to", .str "mars"), ("fuel", .arr [])]⟩]
  updatedAt := ⟨⟨2024, 2, 29, 23, 59, 59, 250000, some (-330)⟩, by decide⟩

theorem plainRecipe.agree_annotated : plainRecipe.Agree Json.Alike annotated := by
  have hinner : (Json.obj [("x", .null), ("y", .bool true)]).Alike
      (.obj [("y", .bool true), ("x", .null)]) :=
    ⟨_, [("x", .null), ("y", .bool true)], rfl, .swap _ _ _, Json.alikeMembers_refl _⟩
  have hlines : (Json.arr [.obj [("a", .int 1), ("b", .obj [("x", .null), ("y", .bool true)])]]).Alike
      (.arr [.obj [("b", .obj [("y", .bool true), ("x", .null)]), ("a", .int 1)]]) :=
    ⟨_, rfl, _, _, rfl, ⟨_, [("a", .int 1), ("b", .obj [("y", .bool true), ("x", .null)])], rfl,
      .swap _ _ _, _, _, rfl, rfl, _, _, rfl, hinner, rfl⟩, rfl⟩
  refine ⟨rfl, rfl, .cons ⟨rfl, rfl, rfl, ?_⟩ (.cons ⟨rfl, rfl, rfl, ?_⟩ (.cons ⟨rfl, rfl, rfl, ?_⟩ .nil))⟩
  · intro k hk d hd
    obtain rfl : Kind.appendLines = k := Option.some.inj hk
    simp only [Kind.settings, List.mem_cons, List.not_mem_nil, or_false] at hd
    rcases hd with rfl | rfl | rfl | rfl
    · exact .some rfl
    · exact .some hlines
    · exact .none
    · exact .none
  · intro k hk d hd
    obtain rfl : Kind.copy = k := Option.some.inj hk
    simp only [Kind.settings, List.mem_cons, List.not_mem_nil, or_false] at hd
    rcases hd with rfl | rfl | rfl | rfl
    · exact .some rfl
    · exact .some rfl
    · exact .some rfl
    · exact .none
  · intro k hk
    cases hk

theorem declared_settings_decide_annotated :
    plainRecipe.Agree Json.Alike plainRecipe.annotated ∧
      Check.recipe plainRecipe = Check.recipe plainRecipe.annotated ∧
      SameOutcome (SettingsFault.Agree Json.Alike) (Installer.script plainRecipe (.ofTimestamp .epoch))
        (Installer.script plainRecipe.annotated (.ofTimestamp .epoch)) := by
  have hkeyed : ∀ s ∈ plainRecipe.steps, (Json.obj s.config).WellKeyed := by
    simp [plainRecipe, Json.WellKeyed, Json.WellKeyedMembers, Json.WellKeyedItems, IsKeyed]
  exact ⟨plainRecipe.agree_annotated,
    declared_settings_decide plainRecipe.agree_annotated hkeyed (.ofTimestamp .epoch)⟩

end Provision
