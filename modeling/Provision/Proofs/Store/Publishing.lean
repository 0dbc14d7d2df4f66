import Provision.Proofs.Store.Failing
import Provision.Proofs.Store.Reloading

/-!
# What a save may change

A save makes a file beside the recipe, fills it and moves it over the recipe. A file that came where nothing was and is
moved away has not touched anything but the place that it is moved to (`Disk.Finds.footprint_rename`). So a save that
succeeds touches the recipe of its project and nothing else, and one that fails touches nothing at all. New directories
are those that the path to the files of the project leads through (`Store.footprint_saveRecipe`).
-/

namespace Provision

open Provision.Bundle (OnWay)
open Disk (Footprint)

namespace Disk

variable {needed : List String → Prop} {d d' : Disk} {temp target : Path} {place : List String} {mode : Nat}
  {c : Content} {u : Unit}

/-- Of a file that came where nothing was and is moved, only the place that it is moved to is touched. -/
theorem Finds.footprint_rename (hfree : d.Finds temp (.absent place)) (hd : d.WellFormed)
    (h : (rename temp target).run (d.setAt place (some (.file mode c))) = (.ok u, d')) :
    Footprint (· = d.placeOf target) needed d d' := by
  have hput := hfree.setAt_absent (.file mode c)
  obtain ⟨source, mode', c', spot, hsource, htarget, hno, hcwd, hroot, hheld⟩ := rename_eq_ok h
  cases hput.locate.symm.trans hsource
  have hwalk := walk_of_locate htarget
  have hplace : spot.place = d.placeOf target := place_eq_follow hwalk
  -- Without the file the tree is the one from before it came.
  have hback : (d.setAt place (some (.file mode c))).root.set none place = d.root := by
    rw [← setAt_root, hfree.setAt_setAt, setAt_root, Node.set_none_of_free (get_absent hfree.leads)]
  rw [setAt_root, setAt_root, hback] at hroot
  have hno' : d.root.NoDirAt spot.place := fun es hes => by
    obtain ⟨es', hes'⟩ := Node.keepsDirs_set (some (.file mode c)) (noDirAt_of_absent hfree.leads) _ _ hes
    exact hno es' hes'
  have hget : (d.root.set (some (.file mode c)) spot.place).get? spot.place = some (.file mode c) := by
    have hdirs := Node.keepsDirs_set none (Node.noDirAt_of_file (get_of_walk hput.leads))
    rw [hback] at hdirs
    exact get_set_spot hdirs hwalk _
  refine ⟨hcwd, fun l hl => ?_, fun l hl => ?_⟩
  · rcases hheld l hl with ⟨hl', -⟩ | ⟨hl', -⟩
    · exact hl'
    · exact absurd hl' (hd.not_held (get_absent hfree.leads))
  · rw [hroot]
    exact Node.stands_set_leaf hno' (Node.isLeaf_file mode c) hget fun he => hl (he.trans hplace)

end Disk

theorem Save.footprint_of_run {v : Save} {d d' : Disk} (hd : d.WellFormed) (h : v.run .none d = (.ok (), d')) :
    Footprint (· = d.placeOf v.target) (OnWay d (v.dir.child assetsDir)) d d' := by
  obtain ⟨d₁, text, temp, d₂, d₃, hdirs, -, htemp, hwrite, hmove⟩ := run_ok_cases h
  obtain ⟨name, -, -, -, hfree, rfl⟩ := Disk.reserve_of_createTemp htemp
  have hfilled := Disk.run_write_found (hfree.setAt_absent (.file 0o600 (.bytes .empty))) (.bytes text.toUTF8) 0o644
  cases hwrite.symm.trans hfilled
  rw [hfree.setAt_setAt] at hmove
  have hmade := Store.onlyMakes_makeDirs (v.dir.child assetsDir) d
  rw [hdirs] at hmade
  have hmoved : Footprint (· = d₁.placeOf v.target) (OnWay d (v.dir.child assetsDir)) d₁ d' :=
    hfree.footprint_rename (hd.of_keeps fun l => (Disk.keeps_makeDirs _).of_run hdirs) hmove
  rw [Disk.placeOf_of_cwd hmade.cwd] at hmoved
  exact (hmade.mono fun _ => False.elim).trans hmoved

/-- A save touches the recipe if it succeeds, and nothing else. What is new are directories, on the way to the files of
the project. -/
theorem Store.footprint_saveRecipe {w : Workspace} (hd : w.disk.WellFormed) (s : Store) (r : Recipe) :
    Footprint (fun l => (∃ stored, ((s.saveRecipe r).run w).1 = .ok stored) ∧
        l = w.disk.placeOf (s.recipePath r.project.id))
      (OnWay w.disk (s.assetsPath r.project.id)) w.disk ((s.saveRecipe r).run w).2.disk := by
  cases hrefusal : refusal? r with
  | some fault =>
    rw [run_saveRecipe_refused hrefusal]
    exact .refl _
  | none =>
    rcases hrun : (s.saving r w.now).run .none w.disk with ⟨f | u, d⟩
    · have hmade := onlyMakes_makeDirs (s.assetsPath r.project.id) w.disk
      change Disk.OnlyMakes _ _ ((Disk.makeDirs ((s.saving r w.now).dir.child Save.assetsDir)).run w.disk).2 at hmade
      rw [← Save.disk_of_error hd hrun] at hmade
      rw [run_saveRecipe_eq hrefusal hrun]
      exact (hmade.trans (onlyMakes_logged _ _ { w with disk := d })).mono fun _ => False.elim
    · have hmoved := Save.footprint_of_run hd hrun
      rw [run_saveRecipe_eq hrefusal hrun]
      refine (hmoved.mono fun l hl => ⟨⟨_, rfl⟩, hl⟩).trans ?_
      exact (onlyMakes_logged (s.saving r w.now) _ { w with disk := d }).mono fun _ => False.elim

end Provision
