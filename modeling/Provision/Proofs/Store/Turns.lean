import Provision.Proofs.Disk.Leaves
import Provision.Proofs.Disk.Replacing
import Provision.Proofs.Store.Isolation
import Provision.Proofs.Store.Saving

/-!
# One step of a save

A save that has made a temporary file owns it (`Save.Owns`): nothing else is done to it. What a step of such a
save does is told once (`Save.Turn`, `Save.turn_of_step`), and from that, which leaves of the disk it changes:
free names for directories, the temporary file, and in the one step that publishes it the recipe.
-/

namespace Provision

open Disk (IsPlain Alters)

namespace Store

variable {s : Store} {a b name : String} {d d' : Disk}

/-- The names below the root that lead to a project. A single dot stays at the root. -/
def entryNames (id : String) : List String :=
  if id = "." then [] else [id]

theorem below_entryPath (s : Store) (ha : isName a = true) : Disk.Below s.root (entryNames a) (s.entryPath a) := by
  by_cases hdot : a = "."
  · rw [entryNames, if_pos hdot, entryPath, hdot, Path.child_dot]
    exact .refl s.root
  · obtain ⟨hs, hd⟩ := single_of_isName ha hdot
    rw [entryNames, if_neg hdot]
    exact (Disk.Below.refl s.root).child hs hd

theorem placeOf_entryPath (s : Store) (d : Disk) (ha : isName a = true) :
    d.placeOf (s.entryPath a) = d.placeOf s.root ++ entryNames a :=
  Disk.placeOf_below (below_entryPath s ha)

theorem placeOf_recipePath (s : Store) (d : Disk) (id : String) :
    d.placeOf (s.recipePath id) = d.placeOf (s.entryPath id) ++ [Save.recipeFile] :=
  Disk.placeOf_below ((Disk.Below.refl _).child Save.isEntry_recipeFile.single (by decide))

theorem placeOf_assetsPath (s : Store) (d : Disk) (id : String) :
    d.placeOf (s.assetsPath id) = d.placeOf (s.entryPath id) ++ [Save.assetsDir] :=
  Disk.placeOf_below ((Disk.Below.refl _).child Save.isEntry_assetsDir.single (by decide))

theorem entryNames_inj (h : entryNames a = entryNames b) : a = b := by
  unfold entryNames at h
  split at h <;> rename_i ha <;> split at h <;> rename_i hb
  · rw [ha, hb]
  · cases h
  · cases h
  · exact List.singleton_inj.1 h

section

variable (ha : isName a = true) (hb : isName b = true) (hab : b = "." → a ≠ Save.recipeFile)

include ha hb hab

/-- The recipe of one project is not on the way to another, as long as that has not its name. -/
theorem not_below_entry (s : Store) (d : Disk) : ¬ d.placeOf (s.recipePath b) <+: d.placeOf (s.entryPath a) := by
  rw [placeOf_recipePath, placeOf_entryPath s d ha, placeOf_entryPath s d hb, List.append_assoc,
    List.prefix_append_right_inj]
  intro h
  have hlength := h.length_le
  unfold entryNames at h hlength
  split at h
  · rename_i hdot
    split at h
    · cases List.prefix_nil.1 h
    · obtain ⟨t, ht⟩ := h
      exact hab hdot (List.head_eq_of_cons_eq ht).symm
  · rename_i hb'
    rw [if_neg hb'] at hlength
    split at hlength <;> simp at hlength

theorem not_below_child (s : Store) (d : Disk) (hname : name ≠ Save.recipeFile) :
    ¬ d.placeOf (s.recipePath b) <+: d.placeOf (s.entryPath a) ++ [name] := by
  intro h
  rcases List.prefix_concat_iff.1 h with h | h
  · rw [placeOf_recipePath] at h
    obtain ⟨-, hlast⟩ := List.append_inj' h rfl
    exact hname (List.singleton_inj.1 hlast).symm
  · exact not_below_entry ha hb hab s d h

theorem eq_of_below_recipe (s : Store) (d : Disk) (h : d.placeOf (s.recipePath b) <+: d.placeOf (s.recipePath a)) :
    a = b := by
  rw [placeOf_recipePath s d a] at h
  rcases List.prefix_concat_iff.1 h with h | h
  · rw [placeOf_recipePath, placeOf_entryPath s d ha, placeOf_entryPath s d hb] at h
    exact (entryNames_inj (List.append_cancel_left (List.append_cancel_right h))).symm
  · exact absurd h (not_below_entry ha hb hab s d)

end

/-- What a store needs of the disk it is on: the root is a directory, or it will come to be one where its path
says now. -/
structure Settled (s : Store) (d : Disk) : Prop where
  cwd : ∀ x ∈ d.cwd, IsPlain x
  keyed : d.root.Keyed
  root : (∃ place, d.LeadsTo s.root place) ∨ ".." ∉ s.root.names

theorem Settled.of_alters {C : List String → Prop} (h : s.Settled d) (ha : Alters C d d') : s.Settled d' := by
  refine ⟨ha.cwd.symm ▸ h.cwd, ha.keyed, ?_⟩
  rcases h.root with ⟨place, hroot⟩ | hdots
  · exact .inl ⟨place, ha.leadsTo hroot⟩
  · exact .inr hdots

theorem Settled.above_root {q : Path} {l : List String} (h : s.Settled d) (hanchor : q.anchor = s.root.anchor)
    (hnames : q.names <+: s.root.names) (hq : d.Finds q (.absent l)) : l <+: d.placeOf s.root := by
  have hstart : d.start q = d.start s.root := by
    rw [Disk.start, Disk.start, Path.isAbsolute, Path.isAbsolute, hanchor]
  have hleads := hq.leads
  rw [hstart] at hleads
  rcases h.root with ⟨place, es, hroot⟩ | hdots
  · -- Nothing is new, as the root is there.
    obtain ⟨rest, hrest⟩ := hnames
    rw [← hrest] at hroot
    by_cases hr : rest = []
    · rw [hr, List.append_nil, hleads] at hroot
      cases hroot
    · obtain ⟨l', n, hfound, -⟩ := Disk.walk_split hr hroot
      cases hleads.symm.trans hfound
  · have hl : l = Disk.follow (d.start s.root) q.names := Disk.place_eq_follow hleads
    rw [hl]
    exact Disk.follow_above_end hdots hnames

theorem Settled.above_assets {q : Path} {l : List String} (ha : isName a = true) (h : s.Settled d)
    (hanchor : q.anchor = (s.assetsPath a).anchor) (hnames : q.names <+: (s.assetsPath a).names)
    (hq : d.Finds q (.absent l)) : l <+: d.placeOf (s.assetsPath a) := by
  have hbelow := below_entryPath s ha
  have hassets := hbelow.child Save.isEntry_assetsDir.single (by decide)
  have hstart : d.start q = d.start s.root := by
    rw [Disk.start, Disk.start, Path.isAbsolute, Path.isAbsolute, hanchor.trans hassets.anchor]
  have hl : l = Disk.follow (d.start s.root) q.names := hstart ▸ Disk.place_eq_follow hq.leads
  have hroot : q.names <+: s.root.names → l <+: d.placeOf (s.assetsPath a) := fun hnames => by
    rw [assetsPath, Disk.placeOf_below hassets]
    exact (h.above_root (hanchor.trans hassets.anchor) hnames hq).trans (List.prefix_append _ _)
  rw [assetsPath, hassets.names, ← List.append_assoc, ← hbelow.names] at hnames
  rcases List.prefix_concat_iff.1 hnames with hwhole | hnames
  · -- The directory for files.
    have hplace : l = d.placeOf (s.assetsPath a) := by
      rw [hl, hwhole, Disk.follow_append, ← hbelow.start, placeOf_assetsPath, Disk.follow_of_no_dots (by decide)]
      rfl
    exact hplace ▸ List.prefix_refl _
  · rw [hbelow.names] at hnames
    by_cases hdot : a = "."
    · rw [entryNames, if_pos hdot, List.append_nil] at hnames
      exact hroot hnames
    · rw [entryNames, if_neg hdot] at hnames
      rcases List.prefix_concat_iff.1 hnames with hwhole | hnames
      · -- The directory of the project.
        have hplace : l = d.placeOf (s.entryPath a) := by
          rw [hl, Disk.placeOf, hbelow.start, hbelow.names, entryNames, if_neg hdot, hwhole]
        rw [hplace, placeOf_assetsPath]
        exact List.prefix_append _ _
      · exact hroot hnames

theorem Settled.alters_makeDirs (ha : isName a = true) (h : s.Settled d) :
    Alters (fun l => d.root.get? l = none ∧ l <+: d.placeOf (s.assetsPath a)) d
      ((Disk.makeDirs (s.assetsPath a)).run d).2 := by
  have hpreserves : Preserves (fun d d' => s.Settled d →
      Alters (fun l => d.root.get? l = none ∧ l <+: d.placeOf (s.assetsPath a)) d d')
      (Disk.makeDirs (s.assetsPath a)) := by
    refine Disk.preserves_makeDirs (fun d h => .refl _ h.keyed) (fun {d d' d''} h1 h2 h => ?_)
      fun q hanchor hnames d h => ?_
    · have ha1 := h1 h
      have ha2 := h2 (h.of_alters ha1)
      refine ha1.trans (ha2.mono fun l hl => ⟨ha1.none_of_none (fun _ hp => hp.1) hl.1, ?_⟩)
      rw [← Disk.placeOf_of_cwd ha1.cwd]
      exact hl.2
    · rcases Disk.mkdir_cases q d with hd | ⟨l, hq, hd⟩
      · rw [hd]
        exact .refl _ h.keyed
      · rw [hd]
        exact .setAt h.keyed (Disk.noDirAt_of_absent hq.leads) Node.isLeaf_empty
          ⟨Disk.get_absent hq.leads, h.above_assets ha hanchor hnames hq⟩
  exact hpreserves d h

end Store

namespace Save

variable {v : Save} {d d' : Disk} {stage stage' : Stage} {temp : Path} {c : Content}

/-- The temporary file of the save is beside the recipe, and holds the content. -/
structure Owns (v : Save) (d : Disk) (temp : Path) (c : Content) : Prop where
  name : ∃ name, Disk.IsTempName name ∧ Path.IsSingle name ∧ temp = (d.absolute v.dir).child name
  file : d.root.get? temp.names = some (.file 0o600 c)

/-- The save has its temporary file, and once that is filled all of the text is in it. -/
def Sound (v : Save) (d : Disk) : Stage → Prop
  | .reserved temp | .broken temp _ => ∃ c, v.Owns d temp c
  | .filled temp => ∃ text, v.text = .ok text ∧ v.Owns d temp (.bytes text.toUTF8)
  | _ => True

theorem sound_of_none (h : stage.temp? = none) : v.Sound d stage := by
  cases stage with
  | start | prepared | finished => trivial
  | reserved | filled | broken => cases h

theorem Sound.owns (h : v.Sound d stage) (ht : stage.temp? = some temp) : ∃ c, v.Owns d temp c := by
  cases stage with
  | start | prepared | finished => cases ht
  | reserved | broken =>
    cases ht
    exact h
  | filled =>
    cases ht
    obtain ⟨text, -, howns⟩ := h
    exact ⟨_, howns⟩

theorem Owns.dotted (h : v.Owns d temp c) :
    ∃ name, (∃ cs, name.toList = '.' :: 'r' :: cs) ∧ temp.names = (d.absolute v.dir).names ++ [name] := by
  obtain ⟨name, htemp, hs, rfl⟩ := h.name
  refine ⟨name, ?_, Path.names_child _ hs⟩
  rcases htemp.cases with rfl | ⟨-, hcs⟩
  · exact absurd rfl hs.ne_empty
  · exact hcs

theorem Owns.place {spot : Disk.Spot} (h : v.Owns d temp c) (hl : d.locate temp = .ok spot) :
    spot.place = temp.names := by
  obtain ⟨name, ⟨cs, hcs⟩, hnames⟩ := h.dotted
  refine Disk.place_of_absolute ?_ ?_ hl
  · obtain ⟨name, -, hs, rfl⟩ := h.name
    rw [Path.start_child d _ hs, Disk.start_absolute]
  · rw [hnames, List.mem_append, List.mem_singleton, not_or]
    refine ⟨Path.no_dots_collapse _, ?_⟩
    rintro rfl
    cases hcs

theorem Owns.located {spot : Disk.Spot} (h : v.Owns d temp c) (hl : d.locate temp = .ok spot) :
    spot = .found temp.names (.file 0o600 c) := by
  have hplace := h.place hl
  have hw := Disk.walk_of_locate hl
  cases spot with
  | absent l =>
    obtain rfl : l = temp.names := hplace
    cases (Disk.get_absent hw).symm.trans h.file
  | found l n =>
    obtain rfl : l = temp.names := hplace
    obtain rfl := Option.some.inj ((Disk.get_of_walk hw).symm.trans h.file)
    rfl

theorem Owns.of_alters {C : List String → Prop} (h : v.Owns d temp c) (ha : Alters C d d') (hC : ¬ C temp.names) :
    v.Owns d' temp c := by
  obtain ⟨name, htemp, hs, rfl⟩ := h.name
  refine ⟨⟨name, htemp, hs, ?_⟩, ha.file _ _ _ hC h.file⟩
  rw [Disk.absolute, Disk.absolute, Disk.start_of_cwd ha.cwd]

theorem Sound.of_alters {C : List String → Prop} (h : v.Sound d stage) (ha : Alters C d d')
    (hC : ∀ temp, stage.temp? = some temp → ¬ C temp.names) : v.Sound d' stage := by
  cases stage with
  | start | prepared | finished => trivial
  | reserved temp | broken temp =>
    obtain ⟨c, h⟩ := h
    exact ⟨c, h.of_alters ha (hC temp rfl)⟩
  | filled temp =>
    obtain ⟨text, ht, h⟩ := h
    exact ⟨text, ht, h.of_alters ha (hC temp rfl)⟩

theorem Owns.setAt (h : v.Owns d temp c) (c' : Content) :
    v.Owns (d.setAt temp.names (some (.file 0o600 c'))) temp c' := by
  obtain ⟨name, htemp, hs, rfl⟩ := h.name
  exact ⟨⟨name, htemp, hs, rfl⟩, Node.get_set_of_isSome (by rw [h.file]; rfl) _⟩

theorem Owns.eq_of_write {c' : Content} {u : Unit} (h : v.Owns d temp c)
    (hw : (Disk.write temp c').run d = (.ok u, d')) : d' = d.setAt temp.names (some (.file 0o600 c')) := by
  rcases Disk.write_eq_ok hw with ⟨place, mode, c₀, hl, rfl⟩ | ⟨place, hl, rfl⟩
  · cases h.located hl
    rfl
  · cases h.located hl

theorem owns_reserve {name : String} (htemp : Disk.IsTempName name) (hs : Path.IsSingle name)
    (htemp' : temp = (d.absolute v.dir).child name) (hl : d.locate temp = .ok (.absent temp.names)) :
    v.Owns (d.setAt temp.names (some (.file 0o600 (.bytes .empty)))) temp (.bytes .empty) :=
  ⟨⟨name, htemp, hs, htemp'⟩, Disk.get_set_spot (.refl _) (Disk.walk_of_locate hl) _⟩

/-! ### What a step does -/

/-- What a save that has its temporary file makes of a disk by one step, or by writing a part of its text. -/
inductive Turn (v : Save) (d : Disk) : Stage → Stage → Disk → Prop
  | prepare {after : Stage} : after.temp? = none → after ≠ .finished (.ok ()) →
      Turn v d .start after ((Disk.makeDirs (v.dir.child assetsDir)).run d).2
  | reserve {temp : Path} {name : String} : Disk.IsTempName name → Path.IsSingle name →
      temp = (d.absolute v.dir).child name → d.locate temp = .ok (.absent temp.names) →
      Turn v d .prepared (.reserved temp) (d.setAt temp.names (some (.file 0o600 (.bytes .empty))))
  | fill {temp : Path} {c : Content} {text : String} : v.text = .ok text → v.Owns d temp c →
      Turn v d (.reserved temp) (.filled temp) (d.setAt temp.names (some (.file 0o600 (.bytes text.toUTF8))))
  | tear {temp : Path} {c c' : Content} : v.Owns d temp c →
      Turn v d (.reserved temp) (.reserved temp) (d.setAt temp.names (some (.file 0o600 c')))
  | publish {temp : Path} {text : String} {spot : Disk.Spot} {d' : Disk} : v.text = .ok text →
      v.Owns d temp (.bytes text.toUTF8) → d.locate v.target = .ok spot → d.root.NoDirAt spot.place →
      d'.cwd = d.cwd →
      d'.root = ((d.setAt temp.names none).setAt spot.place (some (.file 0o600 (.bytes text.toUTF8)))).root →
      Turn v d (.filled temp) (.finished (.ok ())) d'
  | discard {temp : Path} {cause : DiskFault} {c : Content} {f : Failure} {d' : Disk} : v.Owns d temp c →
      d'.cwd = d.cwd → d'.root = (d.setAt temp.names none).root →
      Turn v d (.broken temp cause) (.finished (.error f)) d'
  | break {before : Stage} {temp : Path} {cause : DiskFault} : before.temp? = some temp →
      Turn v d before (.broken temp cause) d
  | fail {before : Stage} {f : Failure} : (∀ result, before ≠ .finished result) →
      Turn v d before (.finished (.error f)) d
  | rest {before : Stage} : Turn v d before before d

theorem turn_of_step (hs : v.Sound d stage) (h : v.step stage .none d = (stage', d')) : v.Turn d stage stage' d' := by
  cases stage with
  | start =>
    rcases hr : (Disk.makeDirs (v.dir.child assetsDir)).run d with ⟨e | u, d₁⟩
    · cases (step_start_error hr).symm.trans h
      have hturn : v.Turn d .start (.finished (.error (.disk e))) _ := .prepare rfl nofun
      rwa [hr] at hturn
    · cases (step_start_ok hr).symm.trans h
      have hturn : v.Turn d .start .prepared _ := .prepare rfl nofun
      rwa [hr] at hturn
  | prepared =>
    cases ht : v.text with
    | error e =>
      cases (step_prepared_refused ht).symm.trans h
      exact .fail fun _ he => by cases he
    | ok text =>
      rcases hr : (Disk.createTemp v.dir).run d with ⟨e | temp, d₁⟩
      · cases (step_prepared_error ht hr).symm.trans h
        obtain rfl := Disk.allOrNothing_createTemp _ _ _ _ hr
        exact .fail fun _ he => by cases he
      · cases (step_prepared_ok ht hr).symm.trans h
        obtain ⟨name, htemp, hs, rfl, hl, rfl⟩ := Disk.reserve_of_createTemp hr
        exact .reserve htemp hs rfl hl.locate
  | reserved temp =>
    obtain ⟨c, howns⟩ := hs
    cases ht : v.text with
    | error e =>
      cases (step_reserved_refused ht).symm.trans h
      exact .fail fun _ he => by cases he
    | ok text =>
      rcases hr : (Disk.writeText temp text).run d with ⟨e | u, d₁⟩
      · cases (step_reserved_error ht hr).symm.trans h
        obtain rfl := Disk.allOrNothing_write _ _ _ _ _ _ hr
        exact .break rfl
      · cases (step_reserved_ok ht hr).symm.trans h
        obtain rfl := howns.eq_of_write hr
        exact .fill ht howns
  | filled temp =>
    obtain ⟨text, ht, howns⟩ := hs
    rcases hr : (Disk.rename temp v.target).run d with ⟨e | u, d₁⟩
    · cases (step_filled_error hr).symm.trans h
      obtain rfl := Disk.allOrNothing_rename _ _ _ _ _ hr
      exact .break rfl
    · cases (step_filled_ok hr).symm.trans h
      obtain ⟨source, mode, c', spot, hsource, htarget, hno, hcwd, hroot, -⟩ := Disk.rename_eq_ok hr
      cases howns.located hsource
      exact .publish ht howns htarget hno hcwd hroot
  | broken temp cause =>
    obtain ⟨c, howns⟩ := hs
    rcases hr : (Disk.unlink temp).run d with ⟨e | u, d₁⟩
    · cases (step_broken_error hr).symm.trans h
      obtain rfl := Disk.allOrNothing_unlink _ _ _ _ hr
      exact .fail fun _ he => by cases he
    · cases (step_broken_ok hr).symm.trans h
      rcases Disk.unlink_eq_ok hr with rfl | ⟨l, mode, c', hl, hcwd, hroot⟩
      · exact .fail fun _ he => by cases he
      · cases howns.located hl
        exact .discard howns hcwd hroot
  | finished result =>
    cases h
    exact .rest

theorem turn_of_write (hs : v.Sound d (.reserved temp)) (bytes : ByteArray) :
    v.Turn d (.reserved temp) (.reserved temp) ((Disk.write temp (.bytes bytes)).run d).2 := by
  obtain ⟨c, howns⟩ := hs
  rcases hr : (Disk.write temp (.bytes bytes)).run d with ⟨e | u, d₁⟩
  · obtain rfl := Disk.allOrNothing_write _ _ _ _ _ _ hr
    exact .rest
  · obtain rfl := howns.eq_of_write hr
    exact .tear howns

theorem Turn.sound (h : v.Turn d stage stage' d') (hs : v.Sound d stage) : v.Sound d' stage' := by
  cases h with
  | prepare hnone => exact sound_of_none hnone
  | reserve htemp hsingle htemp' hl => exact ⟨_, owns_reserve htemp hsingle htemp' hl⟩
  | fill ht howns => exact ⟨_, ht, howns.setAt _⟩
  | «break» ht => exact hs.owns ht
  | tear howns => exact ⟨_, howns.setAt _⟩
  | rest => exact hs
  | publish | discard | fail => trivial

theorem Turn.reserved_or_free (h : v.Turn d stage stage' d') (ht : stage'.temp? = some temp) :
    stage.temp? = some temp ∨ d.root.get? temp.names = none := by
  cases h with
  | prepare hnone => cases hnone.symm.trans ht
  | reserve _ _ _ hl =>
    cases ht
    exact .inr (Disk.get_absent (Disk.walk_of_locate hl))
  | fill | tear | rest => exact .inl ht
  | «break» hbefore =>
    cases ht
    exact .inl hbefore
  | publish | discard | fail => cases ht

theorem Turn.eq_of_finished {result : Except Failure Unit} (h : v.Turn d (.finished result) stage' d') :
    stage' = .finished result ∧ d' = d := by
  cases h with
  | «break» ht => cases ht
  | fail hbefore => exact absurd rfl (hbefore _)
  | rest => exact ⟨rfl, rfl⟩

theorem Owns.alters_publish {spot : Disk.Spot} (h : v.Owns d temp c) (hk : d.root.Keyed)
    (hno : d.root.NoDirAt spot.place) (hne : spot.place ≠ temp.names) (hcwd : d'.cwd = d.cwd)
    (hroot : d'.root = ((d.setAt temp.names none).setAt spot.place (some (.file 0o600 c))).root) :
    Alters (fun l => l = temp.names ∨ l = spot.place) d d' :=
  Disk.alters_move hk h.file hno hne hcwd hroot

theorem Owns.ne_target {d₀ : Disk} (h : v.Owns d temp c) (v₀ : Save) : d₀.placeOf v₀.target ≠ temp.names := by
  obtain ⟨name, ⟨cs, hcs⟩, hnames⟩ := h.dotted
  have htarget : d₀.placeOf v₀.target = d₀.placeOf v₀.dir ++ [recipeFile] :=
    Disk.placeOf_below ((Disk.Below.refl _).child isEntry_recipeFile.single (by decide))
  rw [htarget, hnames]
  intro he
  obtain ⟨-, hlast⟩ := List.append_inj' he rfl
  rw [← List.singleton_inj.1 hlast] at hcs
  cases hcs

theorem Turn.published (h : v.Turn d stage (.finished (.ok ())) d') (hk : d.root.Keyed)
    (hne : stage ≠ .finished (.ok ())) :
    ∃ text, v.text = .ok text ∧
      d'.locate v.target = .ok (.found (d.placeOf v.target) (.file 0o600 (.bytes text.toUTF8))) := by
  cases h with
  | prepare _ hne' => exact absurd rfl hne'
  | rest => exact absurd rfl hne
  | @publish temp text spot _ ht howns hl hno hcwd hroot =>
    have hplace : spot.place = d.placeOf v.target := Disk.place_eq_follow (Disk.walk_of_locate hl)
    have halters := howns.alters_publish hk hno (hplace ▸ howns.ne_target v) hcwd hroot
    have hdirs : Node.KeepsDirs d.root (d.setAt temp.names none).root :=
      Node.keepsDirs_set none (Node.noDirAt_of_file howns.file)
    have hget := Disk.get_set_spot hdirs (Disk.walk_of_locate hl) (.file 0o600 (.bytes text.toUTF8))
    refine ⟨text, ht, ?_⟩
    rw [← hplace]
    refine halters.locate hl ?_
    rw [hroot]
    exact hget

/-- The places a step of the save may change. -/
def Touches (v : Save) (d : Disk) (stage : Stage) (l : List String) : Prop :=
  d.root.get? l = none ∨ (∃ temp, stage.temp? = some temp ∧ l = temp.names) ∨ l = d.placeOf v.target

section

variable {s : Store} {a b : String} (ha : Store.isName a = true) (hb : Store.isName b = true)
  (hab : b = "." → a ≠ recipeFile) (hv : v.dir = s.entryPath a)

include ha hb hab hv

theorem Owns.not_below (h : v.Owns d temp c) (hd : s.Settled d) : ¬ d.placeOf (s.recipePath b) <+: temp.names := by
  obtain ⟨name, ⟨cs, hcs⟩, hnames⟩ := h.dotted
  rw [hnames, Disk.names_absolute hd.cwd, hv]
  refine Store.not_below_child ha hb hab s d ?_
  rintro rfl
  cases hcs

theorem Turn.alters (h : v.Turn d stage stage' d') (hd : s.Settled d) :
    Alters (fun l => v.Touches d stage l ∧
      (d.placeOf (s.recipePath b) <+: l → a = b ∧ stage' = .finished (.ok ()))) d d' := by
  have hk := hd.keyed
  cases h with
  | prepare =>
    rw [hv]
    refine (hd.alters_makeDirs ha).mono fun l hl => ⟨.inl hl.1, fun hp => ?_⟩
    have hassets := hp.trans hl.2
    rw [Store.placeOf_assetsPath] at hassets
    exact absurd hassets (Store.not_below_child ha hb hab s d (by decide))
  | @reserve temp name htemp hs htemp' hl =>
    have hnone := Disk.get_absent (Disk.walk_of_locate hl)
    have howns := owns_reserve htemp hs htemp' hl
    have hmade : Alters (fun l => l = temp.names) d
        (d.setAt temp.names (some (.file 0o600 (.bytes .empty)))) :=
      .setAt hk (Disk.noDirAt_of_absent (Disk.walk_of_locate hl)) (Node.isLeaf_file _ _) rfl
    have hnot := howns.not_below ha hb hab hv (hd.of_alters hmade)
    refine hmade.mono ?_
    rintro l rfl
    exact ⟨.inl hnone, fun hp => absurd hp hnot⟩
  | @fill temp c text ht howns =>
    have hnot := howns.not_below ha hb hab hv hd
    exact .setAt hk (Node.noDirAt_of_file howns.file) (Node.isLeaf_file _ _)
      ⟨.inr (.inl ⟨temp, rfl, rfl⟩), fun hp => absurd hp hnot⟩
  | @tear temp c c' howns =>
    have hnot := howns.not_below ha hb hab hv hd
    exact .setAt hk (Node.noDirAt_of_file howns.file) (Node.isLeaf_file _ _)
      ⟨.inr (.inl ⟨temp, rfl, rfl⟩), fun hp => absurd hp hnot⟩
  | @publish temp text spot _ ht howns hl hno hcwd hroot =>
    have hplace : spot.place = d.placeOf v.target := Disk.place_eq_follow (Disk.walk_of_locate hl)
    have hnot := howns.not_below ha hb hab hv hd
    refine (howns.alters_publish hk hno (hplace ▸ howns.ne_target v) hcwd hroot).mono ?_
    rintro l (rfl | rfl)
    · exact ⟨.inr (.inl ⟨temp, rfl, rfl⟩), fun hp => absurd hp hnot⟩
    · refine ⟨.inr (.inr hplace), fun hp => ⟨?_, rfl⟩⟩
      rw [hplace, target, hv] at hp
      exact Store.eq_of_below_recipe ha hb hab s d hp
  | @discard temp cause c f _ howns hcwd hroot =>
    have hnot := howns.not_below ha hb hab hv hd
    have hremoved : Alters (fun l => v.Touches d (.broken temp cause) l ∧
        (d.placeOf (s.recipePath b) <+: l → a = b ∧ Stage.finished (.error f) = .finished (.ok ()))) d
        (d.setAt temp.names none) :=
      .setAt hk (Node.noDirAt_of_file howns.file) Node.isLeaf_none
        ⟨.inr (.inl ⟨temp, rfl, rfl⟩), fun hp => absurd hp hnot⟩
    exact hremoved.of_root hcwd hroot
  | «break» | fail | rest => exact .refl _ hk

end

end Save

end Provision
