import Provision.Proofs.Disk.Sanity
import Provision.Proofs.Store.Turns

/-!
# Calls that succeed

What a call that has succeeded has done to the disk: a save has put the whole text of a recipe in its place
(`Save.done_of_run`), an upload the bytes of a file (`Store.saveAsset_eq_ok`), and nothing else is different but for
directories on the way there.
-/

namespace Provision

open Disk (Alters)
open Workspace (Logs)

namespace Save

variable {v : Save} {d d' : Disk}

/-- What a save has done that has succeeded: its text is where the recipe is, there is a directory for files, and
no file is held that was not held before. A temporary file has come and gone. -/
structure Done (v : Save) (text : String) (d d' : Disk) : Prop where
  written : v.text = .ok text
  altered : ∃ name, (∃ cs, name.toList = '.' :: 'r' :: cs) ∧
    Alters (fun l => ∃ x ∈ [assetsDir, name, recipeFile], l <+: d.placeOf v.dir ++ [x]) d d'
  recipe : d'.root.get? (d.placeOf v.dir ++ [recipeFile]) = some (.file 0o600 (.bytes text.toUTF8))
  leads : ∃ place, d'.LeadsTo (v.dir.child assetsDir) place
  stays : d.Stays d'

/-- The temporary file is new, so it is not the held one, and it has all of the text. -/
theorem fills_of_write {d₁ d₂ d₃ : Disk} {temp : Path} {text : String} (hsane : d₁.Sane)
    (htemp : (Disk.createTemp v.dir).run d₁ = (.ok temp, d₂))
    (hwrite : (Disk.writeText temp text).run d₂ = (.ok (), d₃)) :
    v.Owns d₃ temp (.bytes text.toUTF8) ∧ Alters (fun l => l = temp.names) d₁ d₃ ∧ d₁.held ≠ some temp.names ∧
      d₃.held = d₁.held ∧ d₃.Sane := by
  obtain ⟨name, htempName, hs, htempPath, hfree, hd₂⟩ := Disk.reserve_of_createTemp htemp
  obtain ⟨hsane₂, hends⟩ := Disk.sane_of_createTemp htemp hsane
  have howns₂ : v.Owns d₂ temp (.bytes .empty) := hd₂ ▸ owns_reserve htempName hs htempPath hfree.locate
  have halters₂ : Alters (fun l => l = temp.names) d₁ d₂ :=
    hd₂ ▸ .setAt hsane.tree.keyed (Disk.noDirAt_of_absent hfree.leads) (Node.isLeaf_file _ _) rfl
  have hd₃ := howns₂.eq_of_write hwrite
  have halters₃ : Alters (fun l => l = temp.names) d₂ d₃ :=
    hd₃ ▸ .setAt hsane₂.tree.keyed (Node.noDirAt_of_file howns₂.file) (Node.isLeaf_file _ _) rfl
  have hheld : d₃.held = d₁.held := by rw [hd₃, Disk.setAt_held, hd₂, Disk.setAt_held]
  exact ⟨hd₃ ▸ howns₂.setAt _, halters₂.trans halters₃, hsane.wellFormed.not_held (Disk.get_absent hfree.leads), hheld,
    Disk.sane_of_write hwrite hends hsane₂⟩

theorem publishes_of_rename {temp : Path} {c : Content} {u : Unit} (hsane : d.Sane) (howns : v.Owns d temp c)
    (hnul : v.target.hasNul = false) (h : (Disk.rename temp v.target).run d = (.ok u, d')) :
    Alters (fun l => l = temp.names ∨ l = d.placeOf v.target) d d' ∧
      d'.root.get? (d.placeOf v.target) = some (.file 0o600 c) ∧ d'.Sane ∧
      ∀ l, d'.held = some l → d.held = some l ∨ d.held = some temp.names := by
  obtain ⟨source, mode, c', spot, hsource, htarget, hno, hcwd, hroot, hheld⟩ := Disk.rename_eq_ok h
  cases howns.located hsource
  have hplace : spot.place = d.placeOf v.target := Disk.place_eq_follow (Disk.walk_of_locate htarget)
  have hne : spot.place ≠ temp.names := hplace ▸ howns.ne_target v
  rw [← hplace]
  refine ⟨howns.alters_publish hsane.tree.keyed hno hne hcwd hroot, ?_, ?_, fun l hl => ?_⟩
  · rw [hroot]
    exact Disk.get_set_spot (Node.keepsDirs_set none (Node.noDirAt_of_file howns.file)) (Disk.walk_of_locate htarget) _
  · refine Disk.sane_of_rename h (Path.endsClean_child isEntry_recipeFile.single _) hnul hsane ?_
    intro spot₁ spot₂ h₁ h₂
    rw [howns.place h₁]
    rw [htarget] at h₂
    cases h₂
    exact hne
  · rcases hheld l hl with ⟨hl, -⟩ | ⟨htemp, -⟩
    · exact .inl hl
    · exact .inr htemp

theorem done_of_run {s : Store} {id : String} (hv : v.dir = s.entryPath id) (hid : Store.isName id = true)
    (hclean : s.root.Clean) (hsettled : s.Settled d) (hsane : d.Sane) (h : v.run .none d = (.ok (), d')) :
    ∃ text, v.Done text d d' := by
  obtain ⟨d₁, text, temp, d₂, d₃, hdirs, htext, htemp, hwrite, hmove⟩ := run_ok_cases h
  have hassets : v.dir.child assetsDir = s.assetsPath id := by rw [hv]; rfl
  have hassetsPlace : d.placeOf (v.dir.child assetsDir) = d.placeOf v.dir ++ [assetsDir] :=
    Disk.placeOf_below ((Disk.Below.refl _).child isEntry_assetsDir.single (by decide))
  have hrecipePlace : d.placeOf v.target = d.placeOf v.dir ++ [recipeFile] :=
    Disk.placeOf_below ((Disk.Below.refl _).child isEntry_recipeFile.single (by decide))
  -- The directories are made,
  have halters₁ : Alters (fun l => l <+: d.placeOf v.dir ++ [assetsDir]) d d₁ := by
    have halters := hsettled.alters_makeDirs hid
    rw [← hassets, hdirs, hassetsPlace] at halters
    exact halters.mono fun l hl => hl.2
  have hdirClean : v.dir.Clean := hv ▸ hclean.child id
  have hsane₁ : d₁.Sane := (Disk.sane_makeDirs (hdirClean.child assetsDir)).of_run hdirs hsane
  have hheld₁ : d₁.held = d.held := ((Disk.keeps_makeDirs (l := []) (v.dir.child assetsDir)).of_run hdirs).held
  obtain ⟨l, es, hfiles⟩ := Disk.finds_of_makeDirs hdirs
  -- a temporary file is made and filled,
  obtain ⟨howns, halters₃, hfree, hheld₃, hsane₃⟩ := fills_of_write hsane₁ htemp hwrite
  have hcwd₃ : d₃.cwd = d.cwd := halters₃.cwd.trans halters₁.cwd
  obtain ⟨name, hdotted, hnames⟩ := howns.dotted
  rw [Disk.names_absolute hsane₃.wellFormed.cwd, Disk.placeOf_of_cwd hcwd₃] at hnames
  -- and it is moved over the recipe.
  have hnul : v.target.hasNul = false :=
    Path.noNul_child isEntry_recipeFile (Path.noNul_of_child isEntry_assetsDir.single hfiles.noNul)
  obtain ⟨halters₄, hrecipe, hsane₄, hheld₄⟩ := publishes_of_rename hsane₃ howns hnul hmove
  rw [Disk.placeOf_of_cwd hcwd₃, hrecipePlace] at halters₄ hrecipe
  rw [hnames] at halters₃ halters₄
  refine ⟨text, htext, ⟨name, hdotted, ?_⟩, hrecipe, ?_, ⟨halters₄.cwd.trans hcwd₃, fun l hl => ?_, fun _ => hsane₄⟩⟩
  · have hnamed : ∀ {x : String} (l : List String), x ∈ [assetsDir, name, recipeFile] → l = d.placeOf v.dir ++ [x] →
        ∃ x ∈ [assetsDir, name, recipeFile], l <+: d.placeOf v.dir ++ [x] := by
      rintro x l hx rfl
      exact ⟨x, hx, List.prefix_refl _⟩
    have hdirs : Alters (fun l => ∃ x ∈ [assetsDir, name, recipeFile], l <+: d.placeOf v.dir ++ [x]) d d₁ :=
      halters₁.mono fun l hl => ⟨assetsDir, by simp, hl⟩
    refine hdirs.trans ((halters₃.mono fun l hl => hnamed l (by simp) hl).trans (halters₄.mono fun l hl => ?_))
    rcases hl with hl | hl
    · exact hnamed l (by simp) hl
    · exact hnamed l (by simp) hl
  · exact ⟨l, halters₄.leadsTo (halters₃.leadsTo ⟨es, hfiles.leads⟩)⟩
  · rcases hheld₄ l hl with hl | hl
    · exact hheld₁ ▸ hheld₃ ▸ hl
    · exact absurd (hheld₃ ▸ hl) hfree

end Save

namespace Store

variable {s : Store} {r stored : Recipe} {w w' : Workspace} {path : Path} {id filename : String} {bytes : ByteArray}

theorem saveRecipe_eq_ok {troubles : Disk.Troubles} (h : (s.saveRecipe r troubles).run w = (.ok stored, w')) :
    isName r.project.id = true ∧ stored = { r with updatedAt := w.now } ∧
      ∃ d, (s.saving r w.now).run troubles w.disk = (.ok (), d) ∧ Logs { w with disk := d } w' := by
  cases hrefusal : refusal? r with
  | some f =>
    rw [run_saveRecipe_refused hrefusal] at h
    cases h
  | none =>
    rcases hrun : (s.saving r w.now).run troubles w.disk with ⟨result, d⟩
    rw [run_saveRecipe_eq hrefusal hrun] at h
    cases result with
    | error f => cases h
    | ok u =>
      cases h
      exact ⟨isName_of_refusal hrefusal, rfl, d, rfl, Workspace.logs_emit _ _⟩

theorem createProject_eq_ok {name description : String} {targets : List String}
    (h : (s.createProject name description targets).run w = (.ok stored, w')) :
    ∃ r n w₁ w₂, (s.saveRecipe r).run w₁ = (.ok stored, w₂) ∧ r.project.id = String.ofList (Text.hex 32 n) ∧
      w₁.disk = w.disk ∧ w₁.now = w.now ∧ Logs w₂ w' := by
  have hid : (WorkM.freshId : StoreM String).run w =
      (.ok (String.ofList (Text.hex 32 (w.issued + 1))), { w with issued := w.issued + 1 }) := rfl
  rw [createProject, run_bind_ok hid, run_bind_ok (WorkM.run_now _)] at h
  obtain ⟨stored', w₂, hsave, h⟩ := run_bind_eq_ok.1 h
  rw [run_bind_ok (WorkM.run_log _ _ _ _)] at h
  cases h
  exact ⟨_, _, _, w₂, hsave, rfl, rfl, rfl, Workspace.logs_emit _ _⟩

theorem checkName_eq_ok {name : String} {u : Unit} (h : (checkName name).run w = (.ok u, w')) :
    isName name = true ∧ w = w' := by
  rw [checkName] at h
  split at h
  · rename_i hname
    cases h
    exact ⟨hname, rfl⟩
  · cases h

theorem saveAsset_eq_ok {troubles : Disk.Troubles}
    (h : (s.saveAsset id filename bytes troubles).run w = (.ok path, w')) :
    isName id = true ∧ isName filename = true ∧ ∃ d₁ d₂,
      (Disk.makeDirs (s.assetsPath id) troubles).run w.disk = (.ok (), d₁) ∧
      (Disk.write ((s.assetsPath id).child filename) (.bytes bytes) 0o644 troubles).run d₁ = (.ok (), d₂) ∧
      Logs { w with disk := d₂ } w' := by
  rw [saveAsset] at h
  obtain ⟨_, w₁, hname, h⟩ := run_bind_eq_ok.1 h
  obtain ⟨hfilename, rfl⟩ := checkName_eq_ok hname
  obtain ⟨dir, w₂, hensure, h⟩ := run_bind_eq_ok.1 h
  obtain ⟨dir', w₃, hproject, hensure⟩ := run_bind_eq_ok.1 hensure
  obtain ⟨_, w₄, hname, hproject⟩ := run_bind_eq_ok.1 hproject
  obtain ⟨hid, rfl⟩ := checkName_eq_ok hname
  cases hproject
  obtain ⟨_, w₅, hmake, hensure⟩ := run_bind_eq_ok.1 hensure
  obtain ⟨d₁, hdirs, rfl⟩ := WorkM.onDisk_eq_ok hmake
  cases hensure
  obtain ⟨_, w₆, hput, h⟩ := run_bind_eq_ok.1 h
  obtain ⟨d₂, hwrite, rfl⟩ := WorkM.onDisk_eq_ok hput
  cases h
  exact ⟨hid, hfilename, d₁, d₂, hdirs, hwrite, Workspace.logs_emit _ _⟩

end Store

end Provision
