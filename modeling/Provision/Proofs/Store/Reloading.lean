import Provision.Proofs.Disk.Bytes
import Provision.Proofs.Store.Succeeding

/-!
# Saved recipes loaded again

A save that succeeds leaves its text where the recipe belongs, and the log is not there (`Save.published_of_run`).
So as long as nothing but the log is written, what was saved is loaded again, with the settings of its steps in
the order of their keys: `Store.run_loadRecipe_saved`.
-/

namespace Provision

open Workspace (Logs)

namespace Save

variable {v : Save} {d d' : Disk} {text : String}

/-- The text is where the recipe belongs, and what is held is something else. -/
structure Published (v : Save) (text : String) (d : Disk) : Prop where
  recipe : d.Finds v.target (.found (d.placeOf v.target) (.file 0o600 (.bytes text.toUTF8)))
  free : ∀ l, d.held = some l → ¬ d.placeOf v.target <+: l

theorem Published.of_grown (h : v.Published text d) (hg : Disk.Grown d d') : v.Published text d' := by
  have hplace : d'.placeOf v.target = d.placeOf v.target := Disk.placeOf_of_cwd hg.cwd _
  have hfile := (hg.node _ h.free).trans (Disk.get_of_walk h.recipe.leads)
  refine ⟨⟨h.recipe.noNul, h.recipe.short, ?_⟩, ?_⟩
  · rw [hplace, hg.start]
    exact Disk.walk_keepsDirs hg.shape.keepsDirs h.recipe.leads hfile
  · rw [hplace, hg.held]
    exact h.free

/-- The temporary file is moved to where the recipe belongs, and whatever was held there is let go. -/
theorem published_of_rename {temp : Path} (howns : v.Owns d temp (.bytes text.toUTF8)) (hnul : v.target.hasNul = false)
    (hheld : d.held ≠ some temp.names) (h : (Disk.rename temp v.target).run d = (.ok (), d')) :
    v.Published text d' := by
  obtain ⟨source, mode, c, spot, hsource, htarget, hno, hcwd, hroot, hmoved⟩ := Disk.rename_eq_ok h
  cases howns.located hsource
  have hwalk := Disk.walk_of_locate htarget
  have hplace : spot.place = d'.placeOf v.target := by
    rw [Disk.placeOf_of_cwd hcwd]
    exact Disk.place_eq_follow hwalk
  have hne : temp.names ≠ spot.place := by
    rw [hplace]
    exact (howns.ne_target v).symm
  refine ⟨?_, fun l hl => ?_⟩
  · have hremoved : Node.KeepsDirs d.root (d.setAt temp.names none).root :=
      Node.keepsDirs_set none (Node.noDirAt_of_file howns.file)
    have hno' := Disk.noDirAt_setAt hno (Disk.apart_of_spot howns.file hwalk hno hne) none
    have hdirs : Node.KeepsDirs d.root d'.root := hroot ▸ hremoved.trans (Node.keepsDirs_set _ hno')
    have hfile : d'.root.get? spot.place = some (.file 0o600 (.bytes text.toUTF8)) :=
      hroot ▸ Disk.get_set_spot hremoved hwalk _
    have hleads := Disk.walk_keepsDirs hdirs hwalk hfile
    rw [← Disk.start_of_cwd hcwd] at hleads
    exact ⟨hnul, (Disk.finds_of_locate hnul htarget).short, hplace ▸ hleads⟩
  · rw [← hplace]
    rcases hmoved l hl with ⟨-, -, hnot⟩ | ⟨htemp, -⟩
    · exact hnot hne
    · exact absurd htemp hheld

theorem published_of_run (hd : d.WellFormed) (h : v.run .none d = (.ok (), d')) :
    ∃ text, v.text = .ok text ∧ v.Published text d' := by
  obtain ⟨d₁, text, temp, d₂, d₃, hdirs, htext, htemp, hwrite, hmove⟩ := run_ok_cases h
  obtain ⟨name, htempName, hs, htempPath, hfree, hd₂⟩ := Disk.reserve_of_createTemp htemp
  have howns₂ : v.Owns d₂ temp (.bytes .empty) := hd₂ ▸ owns_reserve htempName hs htempPath hfree.locate
  have hd₃ := howns₂.eq_of_write hwrite
  have howns₃ : v.Owns d₃ temp (.bytes text.toUTF8) := hd₃ ▸ howns₂.setAt _
  -- The temporary file is new, and so is not held.
  have hd₁ : d₁.WellFormed := hd.of_keeps fun l => (Disk.keeps_makeDirs (l := l) _).of_run hdirs
  have hheld : d₃.held ≠ some temp.names := by
    rw [hd₃, Disk.setAt_held, hd₂, Disk.setAt_held]
    exact hd₁.not_held (Disk.get_absent hfree.leads)
  obtain ⟨l, es, hassets⟩ := Disk.finds_of_makeDirs hdirs
  have hnul : v.target.hasNul = false :=
    Path.noNul_child isEntry_recipeFile (Path.noNul_of_child isEntry_assetsDir.single hassets.noNul)
  exact ⟨text, htext, published_of_rename howns₃ hnul hheld hmove⟩

end Save

namespace Store

variable {s : Store} {r stored : Recipe} {w w₁ w₂ : Workspace}

theorem canonical_of_saveRecipe {troubles : Disk.Troubles}
    (h : (s.saveRecipe r troubles).run w = (.ok stored, w₁)) :
    ∃ text, stored.canonical = .ok text := by
  obtain ⟨-, rfl, d, hrun, -⟩ := saveRecipe_eq_ok h
  obtain ⟨-, bytes, -, -, -, -, htext, -⟩ := Save.run_ok_cases hrun
  obtain ⟨text, hcanonical, -⟩ := Except.map_eq_ok.1 htext
  exact ⟨text, hcanonical⟩

theorem run_loadRecipe_saved (hd : w.disk.WellFormed) (hx : r.isExact = true) (hk : r.WellKeyed)
    (h : (s.saveRecipe r).run w = (.ok stored, w₁)) (hlogs : Logs w₁ w₂) :
    (s.loadRecipe r.project.id).run w₂ = (.ok stored.ordered, w₂) := by
  obtain ⟨hid, rfl, d, hrun, hlogs₁⟩ := saveRecipe_eq_ok h
  obtain ⟨bytes, htext, hpublished⟩ := Save.published_of_run hd hrun
  obtain ⟨text, hcanonical, rfl⟩ := Except.map_eq_ok.1 htext
  have hrecipe := (hpublished.of_grown (hlogs₁.trans hlogs).disk).recipe
  have hx' : Recipe.isExact { r with updatedAt := w.now } = true := hx
  have hk' : Recipe.WellKeyed { r with updatedAt := w.now } := ⟨hk.vars, hk.settings⟩
  exact run_loadRecipe hid hrecipe (parse_canonical hx' hk' hcanonical blanks_newline _ _)

end Store

end Provision
