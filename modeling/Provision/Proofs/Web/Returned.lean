import Provision.Proofs.Recipe.Sorted
import Provision.Proofs.Script.Variables
import Provision.Proofs.Web.Agreement

/-!
# Recipes that are sent back

A project is answered with its recipe, in which the members of every object are in the order of their keys. Sent
back as it was answered, the recipe is stored with its variables in the order of their names (`stored_return`). That
alone is changed by the return: the findings and the notes are the same, and so is the script just where the
variables that it assigns stood in that order (`returned_recipe_iff`).
-/

namespace Provision.Web

open Workspace (Logs)

variable {a : App} {q : Request} {id : String} {response got saved : Response} {r stored : Recipe} {ms : Members}
  {w w₁ w₂ w₃ : Workspace}

/-- The request sends the object in an answer, as it was answered. -/
def Request.Returns (q : Request) (x : Response) : Prop :=
  ∃ ms, x.body = some (.obj ms) ∧ payload q = .object ms

theorem Request.Asks.of_same {q' : Request} {method : String} {route : Route} (h : q.Asks method route)
    (hmethod : q'.method = q.method) (htarget : q'.target = q.target) (htype : q'.contentType = q.contentType) :
    q'.Asks method route := by
  rw [Request.Asks, Request.target?, hmethod, htarget, htype]
  exact h

theorem respond_get (hq : q.Asks "GET" (.project id)) (hload : (a.store.loadRecipe id).run w = (.ok r, w)) :
    ((respond a q).run w).1 = .ok ((r.wire.map ok).toOption.getD crashed) := by
  have hanswer : (getProject a id).run w = (.ok ((r.wire.map ok).toOption.getD crashed), w) := by
    cases hv : r.wire with
    | ok v =>
      have hwire : (wireOf r).run w = (.ok v, w) := by
        rw [wireOf, hv]
        rfl
      exact run_answering_ok ((run_bind_ok hload).trans (run_bind_ok hwire))
    | error f =>
      have hwire : (wireOf r).run w = (.error (.write f), w) := by
        rw [wireOf, hv]
        rfl
      rw [getProject, answering, run_tryCatch_error ((run_bind_ok hload).trans (run_bind_error hwire))]
      rfl
  rw [run_respond hq (by simp), handle, if_neg (by decide), hanswer]

theorem ofJson_of_returns (hq : q.Asks "GET" (.project id)) (hload : (a.store.loadRecipe id).run w = (.ok r, w))
    (hexact : r.isExact = true) (hgot : ((respond a q).run w).1 = .ok got) (hbody : got.body = some (.obj ms))
    (now : Timestamp) : Recipe.ofJson now (.obj ms) = .ok r.sorted := by
  rw [respond_get hq hload, Except.ok.injEq] at hgot
  cases hv : r.wire with
  | error f =>
    rw [← hgot, hv] at hbody
    cases hbody
  | ok v =>
    rw [← hgot, hv] at hbody
    rw [← Option.some.inj hbody]
    exact Recipe.ofJson_sorted hv hexact now

section

variable (hobject : payload q = .object ms) (hr : Recipe.ofJson w.now (.obj ms) = .ok r)

include hobject hr

/-- What was saved can be stored, and is loaded as long as nothing but the log is written. -/
theorem loaded_of_saved (hq : q.Asks "PUT" (.project id)) (hexact : r.isExact = true) (hdisk : w.disk.WellFormed)
    (h : (respond a q).run w = (.ok response, w₁)) (hstatus : response.status = 200) (hlogs : Logs w₁ w₂) :
    r.IsStorable ∧ w₂.now = w.now ∧
      (a.store.loadRecipe id).run w₂ = (.ok (r.restamped id w.now).ordered, w₂) := by
  obtain ⟨stored, w₀, issues, v, hstored, hlogs₁, -, -⟩ := respond_save_eq_ok hobject hr hq h hstatus
  have hkeyed : r.WellKeyed := Recipe.wellKeyed_of_ofJson (wellKeyed_of_payload hobject) hr
  have hload := Store.run_loadRecipe_saved hdisk (r := adopted id r) hexact ⟨hkeyed.vars, hkeyed.settings⟩ hstored
    (hlogs₁.trans hlogs)
  obtain ⟨text, htext⟩ := Store.canonical_of_saveRecipe hstored
  obtain ⟨-, rfl, d, -, hlogs₀⟩ := Store.saveRecipe_eq_ok hstored
  have hstorable : (r.restamped id w.now).IsStorable := .of_canonical hexact ⟨hkeyed.vars, hkeyed.settings⟩ htext
  exact ⟨hstorable.of_restamped, ((hlogs₀.trans hlogs₁).trans hlogs).now, hload⟩

end

/-- What is compiled before and after: the same findings and notes, and the scripts of the recipe and of the one with
its variables in the order of their names. -/
structure Recompiled (r : Recipe) (now : Timestamp) (before after : Response) : Prop where
  answered : before.status = 200 ∧ after.status = 200
  notes : ∀ x ∈ [before, after], x.member? "readme" = some (.str (readme r.project))
  issues : ∃ issues, Check.recipe r = .ok issues ∧
    ∀ x ∈ [before, after], x.member? "issues" = some (issuesJson issues).sorted
  script : ∃ t, Installer.script r (.ofTimestamp now) = .ok t ∧ before.member? "installSh" = some (.str t)
  returned : ∃ t, Installer.script r.byName (.ofTimestamp now) = .ok t ∧ after.member? "installSh" = some (.str t)

theorem recompiled_of_artifacts {now : Timestamp} {issues : List Issue} {script script' text text' : String}
    (hscript : Installer.script r (.ofTimestamp now) = .ok script)
    (hscript' : Installer.script r.byName (.ofTimestamp now) = .ok script') (hcheck : Check.recipe r = .ok issues) :
    Recompiled r now (ok (Artifacts.mk script (readme r.project) text issues).wire)
      (ok (Artifacts.mk script' (readme r.project) text' issues).wire) := by
  obtain ⟨hscript₁, hnotes₁, -, hissues₁⟩ := member_wire ⟨script, readme r.project, text, issues⟩
  obtain ⟨hscript₂, hnotes₂, -, hissues₂⟩ := member_wire ⟨script', readme r.project, text', issues⟩
  refine ⟨⟨rfl, rfl⟩, ?_, ⟨issues, hcheck, ?_⟩, ⟨script, hscript, hscript₁⟩, ⟨script', hscript', hscript₂⟩⟩ <;>
    simp only [List.forall_mem_cons]
  · exact ⟨hnotes₁, hnotes₂, List.forall_mem_nil _⟩
  · exact ⟨hissues₁, hissues₂, List.forall_mem_nil _⟩

/-- A recipe without floating-point numbers that is sent back as it was answered is stored with its variables in the
order of their names. What is compiled of it is the same but for the script, which is the same just where the
variables that it assigns were in that order. -/
theorem returned_recipe_iff {get put generate generate' : Request}
    (hget : get.Asks "GET" (.project id)) (hput : put.Asks "PUT" (.project id))
    (hgenerate : generate.Asks "POST" (.preview id)) (hgenerate' : generate'.Asks "POST" (.preview id))
    (hload : (a.store.loadRecipe id).run w = (.ok r, w)) (hexact : r.isExact = true) (hdisk : w.disk.WellFormed)
    (hgot : ((respond a get).run w).1 = .ok got) (hreturns : put.Returns got) (hlogs : Logs w w₁)
    (hsaved : (respond a put).run w₁ = (.ok saved, w₂)) (hstatus : saved.status = 200) (hlogs' : Logs w₂ w₃) :
    ∃ stored before after, (a.store.loadRecipe id).run w₃ = (.ok stored, w₃) ∧ stored.vars = sortByKey r.vars ∧
      ((respond a generate).run w).1 = .ok before ∧ ((respond a generate').run w₃).1 = .ok after ∧
      Recompiled r w.now before after ∧
      (before.member? "installSh" = after.member? "installSh" ↔ Installer.InNameOrder r.vars) := by
  obtain ⟨ms, hbody, hobject⟩ := hreturns
  have hr := ofJson_of_returns hget hload hexact hgot hbody w₁.now
  have hkeyed : r.WellKeyed := Store.wellKeyed_of_loadRecipe hload
  have hkeyed' : r.sorted.WellKeyed := Recipe.wellKeyed_of_ofJson (wellKeyed_of_payload hobject) hr
  have hreordered := r.byName_reordered
  obtain ⟨hstorable, hclock, hload'⟩ := loaded_of_saved hobject hr hput (hreordered.isExact.symm.trans hexact)
    (hlogs.disk.wellFormed hdisk) hsaved hstatus hlogs'
  rw [hlogs.now] at hclock hload'
  -- What was stored is compiled as the recipe with its variables in order is.
  have hbyName : r.byName.IsStorable := (hreordered.isStorable_iff hkeyed.byName hkeyed').2 hstorable
  obtain ⟨issues, script, text, hcheck, hscript, -, hartifacts⟩ :=
    (hbyName.of_byName hkeyed).exists_artifacts (.ofTimestamp w.now)
  obtain ⟨issues', script', -, hcheck', hscript', -, -⟩ := hbyName.exists_artifacts (.ofTimestamp w.now)
  obtain ⟨found, script₀, -, text', hfound, hscript₀, -, hartifacts', -⟩ :=
    Recipe.ofRecipe_restamped hstorable id w.now (.ofTimestamp w.now)
  obtain rfl : script' = script₀ :=
    Except.ok.inj ((hreordered.script hkeyed.byName hscript').symm.trans hscript₀)
  obtain rfl : issues = found := Except.ok.inj (hcheck.symm.trans ((hreordered.check hkeyed.byName).trans hfound))
  have hloaded : Artifacts.ofRecipe (r.sorted.restamped id w.now).ordered (.ofTimestamp w₃.now) =
      .ok ⟨script', readme r.project, text', issues⟩ := by
    rw [hclock, ← (Recipe.alike_ordered _).ofRecipe (hstorable.restamped id _).keyed]
    exact hartifacts'
  have hbefore := respond_preview hgenerate hload hartifacts
  have hafter := respond_preview hgenerate' hload' hloaded
  refine ⟨_, _, _, hload', rfl, hbefore, hafter, recompiled_of_artifacts hscript hscript' hcheck, ?_⟩
  rw [(member_wire _).1, (member_wire _).1, Option.some.injEq, Json.str.injEq]
  exact Installer.script_sortByKey_iff hkeyed.vars hscript hscript'

/-- The recipe of the sample as its project is answered. -/
def sampleAnswer : Members :=
  [("project", .obj [("description", .str ""), ("id", .str "p"), ("name", .str "demo"), ("target", .arr [])]),
    ("schema_version", .str "1.0"),
    ("steps", .arr [.obj [("config", .obj [("mode", .int 755)]), ("id", .str "s"), ("name", .str ""),
      ("type", .str "mkdir")]]),
    ("updatedAt", .str "1970-01-01T00:00:00Z"), ("vars", .obj [("A", .str "2"), ("B", .str "1")])]

/-- The answer sent back. -/
def sampleReturn : Request :=
  { sampleRequest "PUT" "projects/p" with body := ((Json.obj sampleAnswer).toPretty .unicode).toUTF8 }

theorem payload_sampleReturn : payload sampleReturn = .object sampleAnswer := by
  refine payload_of_text (by rw [sampleReturn]) ?_ (by decide +kernel) (by simp [sampleAnswer]) ?_ (by decide)
  · change isJsonType (mediaType "application/json") = true
    decide +kernel
  · refine ⟨by decide, ?_, by decide⟩
    simp [sampleAnswer, Json.WellKeyed, Json.WellKeyedMembers, Json.WellKeyedItems, IsKeyed]

theorem ordered_sample : (sampleBody.recipe.restamped "p" .epoch).ordered = sampleBody.recipe.restamped "p" .epoch := by
  have hconfig : sortByKey [("mode", Json.int 755)] = [("mode", .int 755)] := by simp [sortByKey]
  simp [Recipe.ordered, Recipe.mapSettings, sampleBody.recipe, Recipe.restamped, hconfig]

theorem wire_sample : ∃ v, (sampleBody.recipe.restamped "p" .epoch).wire = .ok v ∧ v.sorted = .obj sampleAnswer := by
  have hepoch : Timestamp.epoch.text = "1970-01-01T00:00:00Z" := by decide +kernel
  refine ⟨_, rfl, ?_⟩
  simp [Recipe.restamped, sampleBody.recipe, Project.wire, Step.wireWith, Recipe.currentSchema, Json.finiteMembers,
    Json.finite, Json.sorted, Json.sortedMembers, Json.sortedItems, sortByKey, List.mergeSort, hepoch, sampleAnswer]

/-- A store with the sample, and nothing else. -/
def sampleLedger : Ledger :=
  Ledger.saveRecipe {} (sampleBody.recipe.restamped "p" .epoch)

def sampleStore : Workspace :=
  Store.sampleWorkspace [("projects", .dir sampleLedger.entries)]

theorem built_sample : Store.Built sampleApp.store ["projects"] sampleLedger sampleStore := by
  have hname : Store.IsEntryName "p" := ⟨by decide, by decide, by decide, by decide⟩
  refine ⟨rfl, (Ledger.sound_nil 0).saveRecipe hname (isStorable_sample.restamped "p" .epoch), ?_⟩
  rw [sampleStore]
  generalize sampleLedger.entries = es
  have habsolute : (Store.sampleWorkspace [("projects", .dir es)]).disk.absolute sampleApp.store.root =
      ⟨.root, ["projects"]⟩ := rfl
  refine ⟨⟨by decide, by decide, rfl⟩, ⟨by decide, by decide⟩, ?_, (Store.wellFormed_sampleWorkspace _).cwd,
    fun l hl => by cases hl⟩
  rw [habsolute]
  exact ⟨by decide, by decide⟩

/-- The variables of the sample are not in the order of their names. -/
theorem returned_recipe_iff_sample : ∃ got saved w stored before after,
    ((respond sampleApp (sampleRequest "GET" "projects/p")).run sampleStore).1 = .ok got ∧
      sampleReturn.Returns got ∧
      (respond sampleApp sampleReturn).run sampleStore = (.ok saved, w) ∧ saved.status = 200 ∧
      (sampleApp.store.loadRecipe "p").run w = (.ok stored, w) ∧ stored.vars = sortByKey [("B", "1"), ("A", "2")] ∧
      ((respond sampleApp (sampleRequest "POST" "projects/p/generate")).run sampleStore).1 = .ok before ∧
      ((respond sampleApp (sampleRequest "POST" "projects/p/generate")).run w).1 = .ok after ∧
      Recompiled (sampleBody.recipe.restamped "p" .epoch) .epoch before after ∧
      before.member? "installSh" ≠ after.member? "installSh" := by
  have hget : (sampleRequest "GET" "projects/p").Asks "GET" (.project "p") :=
    asks_sample (by decide +kernel) (by decide +kernel) (by decide +kernel) (by decide +kernel)
  have hput : sampleReturn.Asks "PUT" (.project "p") := asks_put_sample.of_same rfl rfl rfl
  have hgenerate : (sampleRequest "POST" "projects/p/generate").Asks "POST" (.preview "p") :=
    asks_sample (by decide +kernel) (by decide +kernel) (by decide +kernel) (by decide +kernel)
  have hname : Store.IsEntryName "p" := ⟨by decide, by decide, by decide, by decide⟩
  have hstorable := isStorable_sample.restamped "p" .epoch
  have htied := built_sample.tied
  have hload := htied.load_some hname (r := sampleBody.recipe.restamped "p" .epoch) (by rfl)
  rw [ordered_sample] at hload
  -- The answer is sent back,
  obtain ⟨v, hv, hsorted⟩ := wire_sample
  have hgot := respond_get hget hload
  have hbody : ((Recipe.wire (sampleBody.recipe.restamped "p" .epoch)).map ok).toOption.getD crashed = ok v := by
    rw [hv]
    rfl
  rw [hbody] at hgot
  have hreturns : sampleReturn.Returns (ok v) := ⟨sampleAnswer, congrArg some hsorted, payload_sampleReturn⟩
  -- and is stored.
  have hr := ofJson_of_returns hget hload hstorable.exact hgot (congrArg some hsorted) sampleStore.now
  have hkeyed := Recipe.wellKeyed_of_ofJson (wellKeyed_of_payload payload_sampleReturn) hr
  have hagain := ((Recipe.byName_reordered _).isStorable_iff hstorable.keyed.byName hkeyed).1
    ⟨hstorable.exact, hstorable.keyed.byName, hstorable.shallow, hstorable.writable⟩
  obtain ⟨w₀, hsave, -⟩ := htied.save (r := adopted "p" (Recipe.sorted (sampleBody.recipe.restamped "p" .epoch)))
    hname ⟨hagain.exact, ⟨hagain.keyed.vars, hagain.keyed.settings⟩, hagain.shallow, hagain.writable⟩
  obtain ⟨v', issues, -, hsaved⟩ := respond_save payload_sampleReturn hr hput hsave
  obtain ⟨stored, before, after, hload', hvars, hbefore, hafter, hcompiled, hiff⟩ :=
    returned_recipe_iff hget hput hgenerate hgenerate hload hstorable.exact (Store.wellFormed_sampleWorkspace _) hgot
      hreturns (.refl _) hsaved rfl (.refl _)
  refine ⟨ok v, _, _, stored, before, after, hgot, hreturns, hsaved, rfl, hload', hvars, hbefore, hafter, hcompiled,
    fun heq => ?_⟩
  exact absurd (hiff.1 heq) (by decide)

end Provision.Web
