import Provision.Proofs.Recipe.Reordered
import Provision.Proofs.Script.Advice
import Provision.Proofs.Script.Faults

/-!
# The id and the date of a recipe

A recipe that can be stored can be compiled (`Recipe.IsStorable.exists_artifacts`). Neither its id nor its date is
in the script or in the notes, nor do the checks look at them: a recipe under another id, with another date, has
artifacts that differ in the recipe text alone, and there in nothing but the id and the date
(`Recipe.ofRecipe_restamped`).
-/

namespace Provision

variable {r : Recipe} {s : Step} {text : String}

theorem Step.hasText_value (hshallow : s.nestsTooDeep = false) (hw : (Json.obj s.config).writable = true)
    (key : String) : (s.config.value key).HasText Json.freeCalls := by
  rw [Members.value]
  cases hv : s.config.get? key with
  | none => exact .of_depth rfl (by decide)
  | some v =>
    have hm : (key, v) ∈ s.config := mem_of_lookup hv
    rw [nestsTooDeep, List.any_eq_false] at hshallow
    have hheight : v.height ≤ nestingLimit := Nat.not_lt.1 fun hlt => hshallow _ hm (decide_eq_true hlt)
    have hdepth : v.depth ≤ nestingLimit := (Json.depth_le_height v).trans hheight
    have hcalls : 3 * v.depth + Json.writerCalls ≤ Json.freeCalls := by
      simp only [nestingLimit, Json.writerCalls, Json.freeCalls] at hdepth ⊢
      omega
    exact .of_depth (Json.writable_obj.1 hw _ hm) hcalls

namespace Recipe

theorem IsStorable.of_canonical (hx : r.isExact = true) (hk : r.WellKeyed) (h : r.canonical = .ok text) :
    r.IsStorable := by
  obtain ⟨v, hv, hw, -⟩ := canonical_eq_ok.1 h
  refine ⟨hx, hk, fun s hs => ?_, fun s hs => Json.writable_obj.2 fun m hm => writable_of_wireWith hx hv hw hs hm⟩
  rw [Step.nestsTooDeep, List.any_eq_false]
  intro m hm
  rw [decide_eq_true_iff, Nat.not_lt]
  exact height_le_of_wireWith hv hs hm

/-- The settings that can be stored are nested less deep than those that have no text. -/
theorem IsStorable.hasText (h : r.IsStorable) (hs : s ∈ r.steps) (key : String) :
    (s.config.value key).HasText Json.freeCalls :=
  Step.hasText_value (h.shallow s hs) (h.writable s hs) key

theorem wire_of_canonical (h : r.canonical = .ok text) : ∃ v, r.wire = .ok v := by
  rw [canonical_eq] at h
  split at h
  · cases h
  · rename_i hshallow
    exact ⟨_, if_neg hshallow⟩

theorem isCheckable_of_canonical (h : r.canonical = .ok text) : r.IsCheckable := by
  rw [canonical_eq] at h
  split at h
  · cases h
  · rename_i hshallow
    split at h
    · rename_i hwritable
      intro s hs _ _ key _
      refine Step.hasText_value ?_ (Json.writable_obj.2 fun m hm =>
        writable_of_steps hwritable (by simp) hs hm) key
      exact Bool.eq_false_iff.2 fun hdeep => hshallow (List.any_eq_true.2 ⟨s, hs, hdeep⟩)
    · cases h

theorem IsStorable.isCheckable (h : r.IsStorable) : r.IsCheckable :=
  fun _ hs _ _ key _ => h.hasText hs key

theorem IsStorable.exists_fragment (h : r.IsStorable) (hs : s ∈ r.steps) : ∃ f, Fragment.ofStep s = .ok f := by
  cases hk : s.kind? with
  | none => exact ⟨_, Fragment.ofStep_of_unknown hk⟩
  | some k =>
    obtain ⟨S, hS⟩ : ∃ S, Settings.read k s.config = .ok S := by
      refine Settings.exists_read fun d _ => ?_
      obtain ⟨t, ht⟩ := Json.exists_text_iff.2 (h.hasText hs d.1)
      exact Json.exists_read_of_text d.2 ht
    exact ⟨_, Fragment.ofStep_of_kind hk hS⟩

end Recipe

theorem Installer.exists_fragments {steps : List Step} (h : ∀ s ∈ steps, ∃ f, Fragment.ofStep s = .ok f) :
    ∃ fs, fragments steps = .ok fs := by
  induction steps with
  | nil => exact ⟨[], rfl⟩
  | cons s steps ih =>
    obtain ⟨⟨f, hf⟩, hsteps⟩ := List.forall_mem_cons.1 h
    obtain ⟨fs, hfs⟩ := ih hsteps
    exact ⟨(s, f) :: fs, Except.bind_eq_ok.2 ⟨f, hf, Except.bind_eq_ok.2 ⟨fs, hfs, rfl⟩⟩⟩

theorem Recipe.IsStorable.exists_artifacts (h : r.IsStorable) (t : Moment) :
    ∃ issues script text, Check.recipe r = .ok issues ∧ Installer.script r t = .ok script ∧
      r.canonical = .ok text ∧ Artifacts.ofRecipe r t = .ok ⟨script, readme r.project, text, issues⟩ := by
  obtain ⟨issues, hissues⟩ := Check.exists_recipe_iff.2 h.isCheckable
  obtain ⟨fs, hfs⟩ := Installer.exists_fragments fun s hs => h.exists_fragment hs
  obtain ⟨text, htext⟩ := h.canonical
  have hscript : Installer.script r t = .ok (Installer.assemble r t fs) := by
    rw [Installer.script, hfs]
    rfl
  refine ⟨issues, _, text, hissues, hscript, htext, ?_⟩
  simp only [Artifacts.ofRecipe, Artifacts.checked, Artifacts.script, Artifacts.canonical, hissues, hscript, htext]
  rfl

/-- The members are the same in the same order, but for the id of the project and the date. -/
structure DifferInStamp (ms ns : Members) : Prop where
  keys : ms.map (·.1) = ns.map (·.1)
  others : ∀ key, key ≠ "project" → key ≠ "updatedAt" → ms.get? key = ns.get? key
  project : ∃ ps qs : Members, ms.get? "project" = some (.obj ps) ∧ ns.get? "project" = some (.obj qs) ∧
    ps.map (·.1) = qs.map (·.1) ∧ ∀ key, key ≠ "id" → ps.get? key = qs.get? key

namespace Recipe

variable {id : String} {now : Timestamp}

/-- The recipe under another id, with another date. -/
def restamped (r : Recipe) (id : String) (now : Timestamp) : Recipe :=
  { r with project := { r.project with id }, updatedAt := now }

theorem IsStorable.restamped (h : r.IsStorable) (id : String) (now : Timestamp) : (r.restamped id now).IsStorable :=
  ⟨h.exact, ⟨h.keyed.vars, h.keyed.settings⟩, h.shallow, h.writable⟩

theorem IsStorable.of_restamped (h : (r.restamped id now).IsStorable) : r.IsStorable :=
  ⟨h.exact, ⟨h.keyed.vars, h.keyed.settings⟩, h.shallow, h.writable⟩

theorem IsStorable.read_text (h : r.IsStorable) (ht : r.canonical = .ok text) :
    Json.read .standard text = .ok r.fullWire := by
  obtain ⟨v, hv, hw, rfl⟩ := canonical_eq_ok.1 ht
  obtain ⟨hplain, hdepth⟩ := plainWithin_wireWith h.exact h.keyed hv hw
  have hread : Json.read .standard (v.toPretty .unicode ++ "") = .ok v :=
    Json.read_toPretty rfl hplain (Nat.le_trans hdepth (by decide)) Store.blanks_nil
  rw [String.append_empty] at hread
  rw [hread, wireWith_eq h.exact hv, fullWire]

theorem fullWire_restamped (r : Recipe) (id : String) (now : Timestamp) :
    ∃ ms ns, r.fullWire = .obj ms ∧ (r.restamped id now).fullWire = .obj ns ∧ DifferInStamp ms ns := by
  refine ⟨_, _, rfl, rfl, ?_, fun key hproject hdate => ?_, _, _, rfl, rfl, rfl, fun key hid => ?_⟩
  · simp only [List.map_cons, List.map_nil]
  · simp only [Members.get?, lookup_cons_eq, hproject, hdate, if_false]
    rfl
  · simp only [Members.get?, lookup_cons_eq, hid, if_false]
    rfl

/-- The artifacts differ in nothing but the recipe text, and there in the id and the date. -/
theorem ofRecipe_restamped (h : r.IsStorable) (id : String) (now : Timestamp) (t : Moment) :
    ∃ issues script text text', Check.recipe r = .ok issues ∧ Installer.script r t = .ok script ∧
      Artifacts.ofRecipe r t = .ok ⟨script, readme r.project, text, issues⟩ ∧
      Artifacts.ofRecipe (r.restamped id now) t = .ok ⟨script, readme r.project, text', issues⟩ ∧
      ∃ ms ns, Json.read .standard text = .ok (.obj ms) ∧ Json.read .standard text' = .ok (.obj ns) ∧
        DifferInStamp ms ns := by
  obtain ⟨issues, script, text, hissues, hscript, htext, hr⟩ := h.exists_artifacts t
  have h' := h.restamped id now
  obtain ⟨issues', script', text', hissues', hscript', htext', hr'⟩ := h'.exists_artifacts t
  -- Neither the checks nor the script look at the id or the date.
  obtain rfl : issues = issues' := Except.ok.inj (hissues.symm.trans hissues')
  obtain rfl : script = script' := Except.ok.inj (hscript.symm.trans hscript')
  obtain ⟨ms, ns, hms, hns, hstamp⟩ := fullWire_restamped r id now
  have hread := h.read_text htext
  have hread' := h'.read_text htext'
  rw [hms] at hread
  rw [hns] at hread'
  exact ⟨issues, script, text, text', hissues, hscript, hr, hr', ms, ns, hread, hread', hstamp⟩

end Recipe

end Provision
