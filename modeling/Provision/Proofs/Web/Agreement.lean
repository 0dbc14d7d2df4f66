import Provision.Proofs.Bundle.Gate
import Provision.Proofs.Script.Stamp
import Provision.Proofs.Store.Refinement
import Provision.Proofs.Store.Reloading
import Provision.Proofs.Web.Halves
import Provision.Web.Api

/-!
# Stored recipes and recipes that are sent

A recipe can be checked and compiled from the body of a request, or be stored first and compiled from its file.
Whenever it is stored, both answer the same (`saved_recipe_agrees`): the file is read as the recipe with its
settings in the order of their keys, under the id it is stored with and with the date of the save, and none of
this matters to what is compiled. What each route answers is told on its own (`respond_save_eq_ok`,
`respond_validate`, `respond_render`, `respond_preview`).
-/

namespace Provision.Web

open Workspace (Logs)

variable {a : App} {q q' : Request} {method key id : String} {route : Route} {response : Response} {ms : Members}
  {r : Recipe} {w w' : Workspace} {issues : List Issue}

/-- The answer is the one of the handler, where the handler fails one without a body. -/
theorem run_respond {room : Room} {troubles : Disk.Troubles} (h : q.Asks method route)
    (hm : method ∈ ["GET", "PUT", "POST"]) (w : Workspace) :
    (respond a q room troubles).run w =
      match (handle a q method route room troubles).run w with
      | (.ok response, w') => (.ok response, w')
      | (.error _, w') => (.ok crashed, w') := by
  obtain ⟨t, ht, rfl, hroute⟩ := h
  have hoptions : Text.upper q.method ≠ "OPTIONS" := by
    intro h
    rw [h] at hm
    revert hm
    decide
  have hhead : q.method ≠ "HEAD" := by
    intro h
    rw [h] at hm
    revert hm
    decide
  have hanswer : ∀ x, withoutBody q.method x = x := fun x => if_neg hhead
  rw [respond, ht]
  change (answer a q t room troubles >>= fun response => pure (Except.ok response)) w = _
  simp only [answer, hroute, if_neg hoptions, hanswer, bind, StateT.bind]
  rcases (handle a q (Text.upper q.method) route room troubles).run w with ⟨e | response, w'⟩ <;> rfl

theorem run_withRecipe {room : Room} {handle : Recipe → HandlerM Response} (hobject : payload q room = .object ms)
    (hr : Recipe.ofJson w.now (.obj ms) = .ok r) : (withRecipe q handle room).run w = (handle r).run w := by
  rw [withRecipe, withObject, hobject]
  dsimp only
  rw [run_bind_ok (WorkM.run_now w), hr]

/-- A member of the object in an answer. -/
def Response.member? (response : Response) (key : String) : Option Json :=
  match response.body with
  | some (.obj ms) => Members.get? ms key
  | _ => none

theorem member_ok (h : IsKeyed ms) (key : String) :
    (ok (.obj ms)).member? key = (ms.get? key).map Json.sorted := by
  have hkeyed : IsKeyed (Json.sortedMembers ms) := by
    rw [Json.sortedMembers_eq_map]
    exact (isKeyed_map Json.sorted).2 h
  change (sortByKey (Json.sortedMembers ms)).lookup key = (ms.lookup key).map Json.sorted
  rw [lookup_eq_of_perm (isKeyed_sortByKey.2 hkeyed) (sortByKey_perm _), Json.sortedMembers_eq_map, lookup_map]

theorem saveFailure_status {f : Failure} : ((saveFailure f).getD crashed).status ≠ 200 := by
  cases f with
  | store s =>
    change (if s.isInvalidName then 400 else 500) ≠ 200
    split <;> decide
  | _ => exact nofun

theorem run_answering_ok {onFailure : Failure → Option Response} {x : HandlerM Response}
    (h : x.run w = (.ok response, w')) : (answering onFailure x).run w = (.ok response, w') :=
  run_tryCatch_ok h

theorem answering_eq_ok {onFailure : Failure → Option Response} {x : HandlerM Response}
    (h : (answering onFailure x).run w = (.ok response, w')) :
    x.run w = (.ok response, w') ∨ ∃ f, response = (onFailure f).getD crashed := by
  rcases hx : x.run w with ⟨f | response₁, w₁⟩
  · rw [answering, run_tryCatch_error hx] at h
    cases h
    exact .inr ⟨f, rfl⟩
  · rw [answering, run_tryCatch_ok hx] at h
    exact .inl h

theorem wireOf_eq_ok {v : Json} (h : (wireOf r).run w = (.ok v, w')) : w = w' := by
  rw [wireOf] at h
  split at h <;> cases h
  rfl

section

variable (hobject : payload q = .object ms) (hr : Recipe.ofJson w.now (.obj ms) = .ok r)

include hobject hr

/-- The recipe of the body is stored, and the answer has what is found about what was stored. -/
theorem respond_save_eq_ok (hq : q.Asks "PUT" (.project id)) (h : (respond a q).run w = (.ok response, w'))
    (hstatus : response.status = 200) :
    ∃ stored w₁ issues v, (a.store.saveRecipe (adopted id r)).run w = (.ok stored, w₁) ∧ Logs w₁ w' ∧
      Check.recipe stored = .ok issues ∧ response = ok (.obj [("recipe", v), ("issues", issuesJson issues)]) := by
  rw [run_respond hq (by simp), handle, if_pos rfl, saveProject, run_withRecipe hobject hr] at h
  split at h
  · rename_i hanswer
    cases h
    rcases answering_eq_ok hanswer with h | ⟨f, rfl⟩
    · obtain ⟨stored, w₁, hsave, h⟩ := run_bind_eq_ok.1 h
      obtain ⟨issues, w₂, hcheck, h⟩ := run_bind_eq_ok.1 h
      obtain ⟨v, w₃, hwire, h⟩ := run_bind_eq_ok.1 h
      obtain ⟨hissues, hlogs⟩ := Compile.check_eq_ok hcheck
      obtain rfl := wireOf_eq_ok hwire
      cases h
      exact ⟨stored, w₁, issues, v, hsave, hlogs, hissues, rfl⟩
    · exact absurd hstatus saveFailure_status
  · cases h
    cases hstatus

/-- Whatever has been stored is answered for: it has a wire form, and it can be checked. -/
theorem respond_save {stored : Recipe} {w₁ : Workspace} (hq : q.Asks "PUT" (.project id))
    (hsave : (a.store.saveRecipe (adopted id r)).run w = (.ok stored, w₁)) :
    ∃ v issues, stored.wire = .ok v ∧ (respond a q).run w =
      (.ok (ok (.obj [("recipe", v), ("issues", issuesJson issues)])), ((Compile.check stored).run w₁).2) := by
  obtain ⟨text, htext⟩ := Store.canonical_of_saveRecipe hsave
  obtain ⟨v, hv⟩ := Recipe.wire_of_canonical htext
  obtain ⟨issues, hissues⟩ := Check.exists_recipe_iff.2 (Recipe.isCheckable_of_canonical htext)
  obtain ⟨w₂, -, hcheck⟩ := Compile.run_check stored w₁
  rw [hissues] at hcheck
  have hwire : (wireOf stored).run w₂ = (.ok v, w₂) := by
    rw [wireOf, hv]
    rfl
  have hanswer : (saveProject a id q).run w =
      (.ok (ok (.obj [("recipe", v), ("issues", issuesJson issues)])), w₂) := by
    rw [saveProject, run_withRecipe hobject hr]
    exact run_answering_ok ((run_bind_ok hsave).trans ((run_bind_ok hcheck).trans (run_bind_ok hwire)))
  refine ⟨v, issues, hv, ?_⟩
  rw [run_respond hq (by simp), handle, if_pos rfl, hanswer, hcheck]

theorem respond_save_error {f : Failure} {w₁ : Workspace} (hq : q.Asks "PUT" (.project id))
    (hsave : (a.store.saveRecipe (adopted id r)).run w = (.error f, w₁)) :
    (respond a q).run w = (.ok ((saveFailure f).getD crashed), w₁) := by
  have hanswer : (saveProject a id q).run w = (.ok ((saveFailure f).getD crashed), w₁) := by
    rw [saveProject, run_withRecipe hobject hr, saveAs, answering, run_tryCatch_error (run_bind_error hsave)]
    rfl
  rw [run_respond hq (by simp), handle, if_pos rfl, hanswer]

theorem respond_render {x : Artifacts} (hq : q.Asks "POST" .render)
    (hx : Artifacts.ofRecipe r (.ofTimestamp w.now) = .ok x) : ((respond a q).run w).1 = .ok (ok x.wire) := by
  obtain ⟨w', -, hrun⟩ := Compile.run_compile r none w
  rw [Option.getD_none, hx] at hrun
  have hattempt := Bundle.run_attempt_eq (Compile.compile r none) w
  rw [hrun] at hattempt
  rw [run_respond hq (by simp), handle, render, run_withRecipe hobject hr, compileReply, run_bind_ok hattempt]
  rfl

end

theorem respond_validate {room : Room} (hobject : payload q room = .object ms)
    (hr : Recipe.ofJson w.now (.obj ms) = .ok r) (hq : q.Asks "POST" .validate)
    (hcheck : Check.recipe r room = .ok issues) (troubles : Disk.Troubles) : ((respond a q room troubles).run w).1 =
      .ok (ok (.obj [("valid", .bool (!hasErrors issues)), ("issues", issuesJson issues)])) := by
  obtain ⟨w', -, hrun⟩ := Compile.run_check r w room
  rw [hcheck] at hrun
  have hfound : (validate q room).run w =
      (.ok (ok (.obj [("valid", .bool (!hasErrors issues)), ("issues", issuesJson issues)])), w') := by
    rw [validate, run_withRecipe hobject hr]
    exact run_answering_ok (run_bind_ok hrun)
  rw [run_respond hq (by simp), handle, hfound]

theorem respond_preview {x : Artifacts} (hq : q.Asks "POST" (.preview id))
    (hload : (a.store.loadRecipe id).run w = (.ok r, w))
    (hx : Artifacts.ofRecipe r (.ofTimestamp w.now) = .ok x) : ((respond a q).run w).1 = .ok (ok x.wire) := by
  obtain ⟨w', -, hrun⟩ := Compile.run_compile r none w
  rw [Option.getD_none, hx] at hrun
  have hcompiled : (preview a id).run w = (.ok (ok x.wire), w') :=
    run_answering_ok ((run_bind_ok hload).trans (run_bind_ok hrun))
  rw [run_respond hq (by simp), handle, hcompiled]

/-! ### Agreement -/

/-- The answers to saving a recipe, to compiling it from its file, and to compiling and checking it from the body
of a request: they have the same findings, and those that compile it the same script and the same notes. The
texts of the recipe differ at most in the id of the project and in the date. -/
structure Agree (r : Recipe) (now : Timestamp) (saved generated rendered validated : Response) : Prop where
  answered : ∀ x ∈ [generated, rendered, validated], x.status = 200
  script : ∃ t, Installer.script r (.ofTimestamp now) = .ok t ∧
    ∀ x ∈ [generated, rendered], x.member? "installSh" = some (.str t)
  notes : ∀ x ∈ [generated, rendered], x.member? "readme" = some (.str (readme r.project))
  issues : ∃ issues, Check.recipe r = .ok issues ∧
    ∀ x ∈ [saved, generated, rendered, validated], x.member? "issues" = some (issuesJson issues).sorted
  recipe : ∃ t t' ms ns, rendered.member? "recipeJsonPretty" = some (.str t) ∧
    generated.member? "recipeJsonPretty" = some (.str t') ∧ Json.read .standard t = .ok (.obj ms) ∧
    Json.read .standard t' = .ok (.obj ns) ∧ DifferInStamp ms ns

theorem member_issues {key : String} (h : key ≠ "issues") (v : Json) (issues : List Issue) :
    (ok (.obj [(key, v), ("issues", issuesJson issues)])).member? "issues" = some (issuesJson issues).sorted := by
  have hkeyed : IsKeyed [(key, v), ("issues", issuesJson issues)] := by simpa [IsKeyed] using h
  rw [member_ok hkeyed, Members.get?, lookup_cons_of_ne h.symm, List.lookup_cons_self, Option.map_some]

theorem member_wire (x : Artifacts) : (ok x.wire).member? "installSh" = some (.str x.installSh) ∧
    (ok x.wire).member? "readme" = some (.str x.readme) ∧
    (ok x.wire).member? "recipeJsonPretty" = some (.str x.recipeJson) ∧
    (ok x.wire).member? "issues" = some (issuesJson x.issues).sorted := by
  have hkeyed : IsKeyed [("installSh", Json.str x.installSh), ("readme", .str x.readme),
      ("recipeJsonPretty", .str x.recipeJson), ("issues", issuesJson x.issues)] := by simp [IsKeyed]
  exact ⟨member_ok hkeyed _, member_ok hkeyed _, member_ok hkeyed _, member_ok hkeyed _⟩

theorem agree_of_artifacts {now : Timestamp} {script t t' : String} {ns ns' : Members} {v : Json}
    (hscript : Installer.script r (.ofTimestamp now) = .ok script) (hcheck : Check.recipe r = .ok issues)
    (hread : Json.read .standard t = .ok (.obj ns)) (hread' : Json.read .standard t' = .ok (.obj ns'))
    (hstamp : DifferInStamp ns ns') :
    Agree r now (ok (.obj [("recipe", v), ("issues", issuesJson issues)]))
      (ok (Artifacts.mk script (readme r.project) t' issues).wire)
      (ok (Artifacts.mk script (readme r.project) t issues).wire)
      (ok (.obj [("valid", .bool (!hasErrors issues)), ("issues", issuesJson issues)])) := by
  obtain ⟨hscript₁, hnotes₁, htext₁, hissues₁⟩ := member_wire ⟨script, readme r.project, t, issues⟩
  obtain ⟨hscript₂, hnotes₂, htext₂, hissues₂⟩ := member_wire ⟨script, readme r.project, t', issues⟩
  refine ⟨?_, ⟨script, hscript, ?_⟩, ?_, ⟨issues, hcheck, ?_⟩,
    t, t', ns, ns', htext₁, htext₂, hread, hread', hstamp⟩ <;> simp only [List.forall_mem_cons]
  · exact ⟨rfl, rfl, rfl, nofun⟩
  · exact ⟨hscript₂, hscript₁, nofun⟩
  · exact ⟨hnotes₂, hnotes₁, nofun⟩
  · exact ⟨member_issues (by simp) v issues, hissues₂, hissues₁, member_issues (by simp) _ issues, nofun⟩

/-- A recipe without floating-point numbers that a save answers for is compiled from its file, as long as nothing
but the log is written, as it is compiled and checked from the body, with the same clock. -/
theorem saved_recipe_agrees {put generate render validate : Request} {saved : Response} {w₁ w₂ w₃ w₄ : Workspace}
    (hput : put.Asks "PUT" (.project id)) (hgenerate : generate.Asks "POST" (.preview id))
    (hrender : render.Asks "POST" .render) (hvalidate : validate.Asks "POST" .validate)
    (hrenderBody : render.SameBody put) (hvalidateBody : validate.SameBody put)
    (hobject : payload put = .object ms) (hr : Recipe.ofJson w.now (.obj ms) = .ok r)
    (hexact : r.isExact = true) (hdisk : w.disk.WellFormed)
    (hsaved : (respond a put).run w = (.ok saved, w₁)) (hstatus : saved.status = 200)
    (hlogs : Logs w₁ w₂) (hrenderClock : w₃.now = w.now) (hvalidateClock : w₄.now = w.now) :
    ∃ generated rendered validated, ((respond a generate).run w₂).1 = .ok generated ∧
      ((respond a render).run w₃).1 = .ok rendered ∧ ((respond a validate).run w₄).1 = .ok validated ∧
      Agree r w.now saved generated rendered validated := by
  obtain ⟨stored, w₀, issues, v, hstored, hlogs₁, hissues, rfl⟩ :=
    respond_save_eq_ok hobject hr hput hsaved hstatus
  have hkeyed : r.WellKeyed := Recipe.wellKeyed_of_ofJson (wellKeyed_of_payload hobject) hr
  have hexact' : (adopted id r).isExact = true := hexact
  have hkeyed' : (adopted id r).WellKeyed := ⟨hkeyed.vars, hkeyed.settings⟩
  -- What was stored is loaded, but for the order of settings,
  have hload := Store.run_loadRecipe_saved hdisk hexact' hkeyed' hstored (hlogs₁.trans hlogs)
  obtain ⟨text, htext⟩ := Store.canonical_of_saveRecipe hstored
  obtain ⟨-, rfl, d, -, hlogs₀⟩ := Store.saveRecipe_eq_ok hstored
  have hclock : w₂.now = w.now := ((hlogs₀.trans hlogs₁).trans hlogs).now
  -- and is compiled as the recipe of the body is.
  have hstorable : (r.restamped id w.now).IsStorable :=
    .of_canonical hexact ⟨hkeyed.vars, hkeyed.settings⟩ htext
  obtain ⟨found, script, t, t', hcheck, hscript, hrendered, hgenerated, ns, ns', hread, hread', hstamp⟩ :=
    Recipe.ofRecipe_restamped hstorable.of_restamped id w.now (.ofTimestamp w.now)
  obtain rfl : issues = found := Except.ok.inj (hissues.symm.trans hcheck)
  have hloaded : Artifacts.ofRecipe (r.restamped id w.now).ordered (.ofTimestamp w₂.now) =
      .ok ⟨script, readme r.project, t', issues⟩ := by
    rw [hclock, ← (Recipe.alike_ordered _).ofRecipe hstorable.keyed]
    exact hgenerated
  have hgen := respond_preview hgenerate hload hloaded
  have hren := respond_render (a := a) (hrenderBody.payload.trans hobject) (hrenderClock.symm ▸ hr) hrender
    (hrenderClock.symm ▸ hrendered)
  have hval := respond_validate (a := a) (hvalidateBody.payload.trans hobject) (hvalidateClock.symm ▸ hr)
    hvalidate hcheck .none
  exact ⟨_, _, _, hgen, hren, hval, agree_of_artifacts hscript hcheck hread hread' hstamp⟩

/-- A recipe with another id than it is stored under, and a step without a required setting. -/
def sampleBody : Members :=
  [("project", .obj [("id", .str "q"), ("name", .str "demo")]), ("vars", .obj [("B", .str "1"), ("A", .str "2")]),
    ("steps", .arr [.obj [("id", .str "s"), ("type", .str "mkdir"), ("config", .obj [("mode", .int 755)])]])]

def sampleBody.recipe : Recipe where
  schemaVersion := Recipe.currentSchema
  project := { id := "q", name := "demo" }
  vars := [("B", "1"), ("A", "2")]
  steps := [{ id := "s", type := "mkdir", config := [("mode", .int 755)] }]
  updatedAt := .epoch

def sampleRequest (method path : String) : Request :=
  { method, target := "/api/" ++ path, contentType := "application/json",
    body := ((Json.obj sampleBody).toPretty .unicode).toUTF8 }

theorem payload_sample (method path : String) : payload (sampleRequest method path) = .object sampleBody := by
  refine payload_of_text (by rw [sampleRequest]) ?_ (by decide +kernel) (by simp [sampleBody]) ?_ (by decide)
  · change isJsonType (mediaType "application/json") = true
    decide +kernel
  · refine ⟨by decide, ?_, by decide⟩
    simp [sampleBody, Json.WellKeyed, Json.WellKeyedMembers, Json.WellKeyedItems, IsKeyed]

theorem isPaired_sample (method path : String) : (sampleRequest method path).isPaired = true :=
  isPaired_of_text (by rw [sampleRequest]) (by simp [sampleBody]) (by decide +kernel)

theorem recipe_sample : Recipe.ofJson .epoch (.obj sampleBody) = .ok sampleBody.recipe := by rfl

theorem isStorable_sample : sampleBody.recipe.IsStorable := by
  refine ⟨by decide, ⟨by simp [sampleBody.recipe, IsKeyed], ?_⟩, by decide, by decide⟩
  simp [sampleBody.recipe, Json.WellKeyed, Json.WellKeyedMembers, IsKeyed]

def sampleApp : App where
  dataRoot := ⟨.relative, ["projects"]⟩

theorem asks_sample {method path : String} {route : Route} (hmethod : Text.upper method = method)
    (hpath : ("/api/".toList ++ path.toList).all isPathChar = true)
    (hroute : Route.ofPath? ("/api/".toList ++ path.toList) = some route) (hallows : route.allows method = true) :
    (sampleRequest method path).Asks method route := by
  have htarget : (sampleRequest method path).target.toList = '/' :: 'a' :: ("pi/".toList ++ path.toList) := by
    rw [sampleRequest, String.toList_append]
    rfl
  refine asks_of_path htarget (List.all_eq_true.1 hpath) (by decide) ?_ hmethod hroute hallows
  change ("application/json".toList.any fun c => c = '\r' || c = '\n') = false
  decide +kernel

theorem asks_put_sample : (sampleRequest "PUT" "projects/p").Asks "PUT" (.project "p") :=
  asks_sample (by decide +kernel) (by decide +kernel) (by decide +kernel) (by decide +kernel)

/-- The recipe is put under another id than its own, on a disk where nothing was stored. -/
theorem respond_put_sample : ∃ saved w₁,
    (respond sampleApp (sampleRequest "PUT" "projects/p")).run (Store.sampleWorkspace []) = (.ok saved, w₁) ∧
      saved.status = 200 := by
  -- The store is tied to an empty ledger, so the save succeeds.
  have habsent : (Store.sampleWorkspace []).disk.Finds ⟨.relative, ["projects"]⟩ (.absent ["projects"]) :=
    ⟨by decide, by decide, rfl⟩
  have htied := Store.tied_of_makeDirs (s := sampleApp.store) (Disk.run_makeDirs_absent habsent)
    ⟨by decide, by decide, rfl⟩ ⟨by decide, by decide⟩ ⟨by decide, by decide⟩ (Store.wellFormed_sampleWorkspace [])
  have hname : Store.IsEntryName "p" := ⟨by decide, by decide, by decide, by decide⟩
  have hstorable : (adopted "p" sampleBody.recipe).IsStorable := isStorable_sample.restamped "p" .epoch
  obtain ⟨w₀, hsave, -⟩ := htied.save (r := adopted "p" sampleBody.recipe) hname hstorable
  obtain ⟨v, issues, -, hsaved⟩ := respond_save (payload_sample _ _) recipe_sample asks_put_sample hsave
  exact ⟨_, _, hsaved, rfl⟩

/-- The project of a recipe that is sent under another id, on a disk where nothing was stored. -/
theorem saved_recipe_agrees_sample : ∃ saved generated rendered validated w₁,
    (respond sampleApp (sampleRequest "PUT" "projects/p")).run (Store.sampleWorkspace []) = (.ok saved, w₁) ∧
      saved.status = 200 ∧
      ((respond sampleApp (sampleRequest "POST" "projects/p/generate")).run w₁).1 = .ok generated ∧
      ((respond sampleApp (sampleRequest "POST" "render")).run (Store.sampleWorkspace [])).1 = .ok rendered ∧
      ((respond sampleApp (sampleRequest "POST" "validate")).run (Store.sampleWorkspace [])).1 = .ok validated ∧
      Agree sampleBody.recipe .epoch saved generated rendered validated := by
  have hgenerate : (sampleRequest "POST" "projects/p/generate").Asks "POST" (.preview "p") :=
    asks_sample (by decide +kernel) (by decide +kernel) (by decide +kernel) (by decide +kernel)
  have hrender : (sampleRequest "POST" "render").Asks "POST" .render :=
    asks_sample (by decide +kernel) (by decide +kernel) (by decide +kernel) (by decide +kernel)
  have hvalidate : (sampleRequest "POST" "validate").Asks "POST" .validate :=
    asks_sample (by decide +kernel) (by decide +kernel) (by decide +kernel) (by decide +kernel)
  obtain ⟨saved, w₁, hsaved, hstatus⟩ := respond_put_sample
  obtain ⟨generated, rendered, validated, hgen, hren, hval, hagree⟩ :=
    saved_recipe_agrees asks_put_sample hgenerate hrender hvalidate ⟨rfl, rfl⟩ ⟨rfl, rfl⟩ (payload_sample _ _)
      recipe_sample isStorable_sample.exact (Store.wellFormed_sampleWorkspace []) hsaved hstatus (.refl w₁) rfl rfl
  exact ⟨saved, generated, rendered, validated, w₁, hsaved, hstatus, hgen, hren, hval, hagree⟩

end Provision.Web
