import Provision.Proofs.Store.Failing
import Provision.Proofs.Store.Publishing
import Provision.Proofs.Web.Leaving
import Provision.Proofs.Web.Returned

/-!
# What putting a recipe changes

The project whose recipe is replaced is the one in the URL, whatever id the recipe in the body has: the id of the URL
is put in its place before anything is stored. So an answer that all went well goes with a change of one file, the
recipe of that project, which is read as the recipe in the answer, but for the order of keys. With any other answer no
file is changed (`put_replaces_recipe`). Lines of the log come on top of both: a recipe that cannot be written lengthens
the log's file (`put_lengthens_log`).
-/

namespace Provision.Web

open Provision.Bundle (OnWay)
open Disk (Footprint OnlyMakes)
open Workspace (Logs)

variable {a : App} {q : Request} {s : Store} {id : String} {r stored : Recipe} {w w' w₁ : Workspace}
  {needed : List String → Prop}

theorem onlyMakes_check (r : Recipe) (w : Workspace) : OnlyMakes needed w.disk ((Compile.check r).run w).2.disk := by
  rw [Compile.check]
  cases Check.recipe r with
  | error f => exact .refl _
  | ok issues => exact Store.onlyMakes_emit w _

theorem member_recipe (v : Json) (issues : List Issue) :
    (ok (.obj [("recipe", v), ("issues", issuesJson issues)])).member? "recipe" = some v.sorted := by
  rw [member_ok (by simp [IsKeyed]), Members.get?, List.lookup_cons_self, Option.map_some]

/-- The project has a recipe under its own id, the one in the answer, but for the order of keys. -/
def Shows (s : Store) (id : String) (response : Response) (w : Workspace) : Prop :=
  ∃ stored v, (s.loadRecipe id).run w = (.ok stored, w) ∧ stored.project.id = id ∧ stored.wire = .ok v ∧
    response.member? "recipe" = some v.sorted

theorem shows_saved (hd : w.disk.WellFormed) (hx : r.isExact = true) (hk : r.WellKeyed)
    (hsave : (s.saveRecipe r).run w = (.ok stored, w₁)) (hlogs : Logs w₁ w') {v : Json} (hv : stored.wire = .ok v)
    (issues : List Issue) :
    Shows s r.project.id (ok (.obj [("recipe", v), ("issues", issuesJson issues)])) w' := by
  have hload := Store.run_loadRecipe_saved hd hx hk hsave hlogs
  obtain ⟨-, rfl, -⟩ := Store.saveRecipe_eq_ok hsave
  -- It is loaded with the settings of its steps in order.
  have hsorted := (Recipe.alike_ordered { r with updatedAt := w.now }).sorted_wire ⟨hk.vars, hk.settings⟩
  rw [hv] at hsorted
  obtain ⟨v', hv', heq⟩ := Except.map_eq_ok.1 hsorted.symm
  exact ⟨_, v', hload, rfl, hv', heq ▸ member_recipe v issues⟩

/-- A request to put a recipe is always answered. If the answer is that all went well, the recipe of the project in the
URL may have changed, and is the one in the answer if the body has no floating-point numbers. Otherwise no file has
changed, but that the log may have got lines at its end. New are at most directories on the way to the files of that
project. -/
theorem put_replaces_recipe (hq : q.Asks "PUT" (.project id)) (hd : w.disk.WellFormed) :
    ∃ response w', (respond a q).run w = (.ok response, w') ∧
      Footprint (fun l => response.status = 200 ∧ l = w.disk.placeOf (a.store.recipePath id))
        (OnWay w.disk (a.store.assetsPath id)) w.disk w'.disk ∧
      (response.status = 200 → ∃ r, Carries q w.now r ∧ (r.isExact = true → Shows a.store id response w')) := by
  by_cases hcarries : ∃ r, Carries q w.now r
  · obtain ⟨r, ms, hobject, hr⟩ := hcarries
    have hkeyed := Recipe.wellKeyed_of_ofJson (wellKeyed_of_payload hobject) hr
    have hfoot := Store.footprint_saveRecipe hd a.store (adopted id r)
    rcases hsave : (a.store.saveRecipe (adopted id r)).run w with ⟨f | stored, w₁⟩
    · rw [hsave] at hfoot
      refine ⟨_, w₁, respond_save_error hobject hr hq hsave, hfoot.mono ?_, fun h => absurd h saveFailure_status⟩
      rintro l ⟨⟨stored, hok⟩, -⟩
      cases hok
    · obtain ⟨v, issues, hv, hrun⟩ := respond_save hobject hr hq hsave
      rw [hsave] at hfoot
      refine ⟨_, _, hrun, ?_, fun _ => ⟨r, ⟨ms, hobject, hr⟩, fun hexact => ?_⟩⟩
      · exact (hfoot.mono fun l hl => ⟨rfl, hl.2⟩).trans ((onlyMakes_check stored w₁).mono fun _ => False.elim)
      · exact shows_saved (r := adopted id r) hd hexact ⟨hkeyed.vars, hkeyed.settings⟩ hsave (logs_check stored w₁) hv
          issues
  · obtain ⟨response, hrefused, hstatus⟩ := run_saveProject_refused a id hcarries
    refine ⟨response, w, ?_, .refl _, fun h => absurd h hstatus⟩
    rw [run_respond hq (by simp), handle, if_pos rfl, hrefused]

/-- The recipe in the body has another id, which nothing is stored under. -/
theorem put_replaces_recipe_sample : ∃ response w',
    (respond sampleApp (sampleRequest "PUT" "projects/p")).run (Store.sampleWorkspace []) = (.ok response, w') ∧
      response.status = 200 ∧ sampleBody.recipe.project.id = "q" ∧
      Footprint (· = ["projects", "p", "recipe.json"])
        (OnWay (Store.sampleWorkspace []).disk (sampleApp.store.assetsPath "p"))
        (Store.sampleWorkspace []).disk w'.disk ∧
      Shows sampleApp.store "p" response w' := by
  obtain ⟨response, w', hrun, hfoot, hshows⟩ :=
    put_replaces_recipe (a := sampleApp) asks_put_sample (Store.wellFormed_sampleWorkspace [])
  obtain ⟨saved, w₁, hsaved, hstatus⟩ := respond_put_sample
  cases hrun.symm.trans hsaved
  obtain ⟨r, ⟨ms, hobject, hr⟩, hexact⟩ := hshows hstatus
  cases (payload_sample _ _).symm.trans hobject
  obtain rfl := Checked.ok.inj (recipe_sample.symm.trans hr)
  have hplace : (Store.sampleWorkspace []).disk.placeOf (sampleApp.store.recipePath "p") =
      ["projects", "p", "recipe.json"] := by decide
  exact ⟨response, w', hrun, hstatus, rfl, hfoot.mono fun l hl => hl.2.trans hplace, hexact isStorable_sample.exact⟩

/-- Where the recipe cannot be written, the request is not answered well, and yet a file has changed: the failure is
logged. -/
theorem put_lengthens_log : ∃ response w',
    (respond sampleApp (sampleRequest "PUT" "projects/a")).run Store.blocked = (.ok response, w') ∧
      response.status ≠ 200 ∧ Store.blocked.disk.root.get? ["run.log"] = some (.file 0o644 (.bytes .empty)) ∧
      w'.disk.root.get? ["run.log"] ≠ some (.file 0o644 (.bytes .empty)) := by
  have hq : (sampleRequest "PUT" "projects/a").Asks "PUT" (.project "a") :=
    asks_sample (by decide +kernel) (by decide +kernel) (by decide +kernel) (by decide +kernel)
  obtain ⟨f, message, hsave⟩ := Store.run_saveRecipe_blocked (r := adopted "a" sampleBody.recipe) rfl
    (isStorable_sample.restamped "a" .epoch)
  exact ⟨_, _, respond_save_error (payload_sample _ _) recipe_sample hq hsave, saveFailure_status, rfl,
    Store.log_blocked Store.logName message⟩

end Provision.Web
