import Provision.Proofs.Disk.Showing
import Provision.Proofs.Store.Ledger
import Provision.Proofs.Store.Saving

/-!
# Projects do not touch each other

An operation on one project spares the directory of every other (`Store.Isolates`), and then nobody can tell
from the other project that it happened (`Store.SameView`). The exception is the project named by a single
dot: its directory is the root of the store, so its files are those of a project named `assets`
(`dot_replaces_recipe`).
-/

namespace Provision

open Disk (Spares Inside IsPlain)

/-- The temporary file of a stage, where it has one. -/
def Save.Stage.temp? : Stage → Option Path
  | .reserved temp | .filled temp | .broken temp _ => some temp
  | _ => none

/-- The temporary file of the stage is one beside the recipe. -/
def Save.Fits (v : Save) (stage : Stage) (d : Disk) : Prop :=
  ∀ temp, stage.temp? = some temp →
    ∃ name, Disk.IsTempName name ∧ temp = (d.absolute v.dir).child name

theorem Save.fits_of_none {v : Save} {stage : Stage} (h : stage.temp? = none) (d : Disk) : v.Fits stage d :=
  fun _ ht => by cases h.symm.trans ht

theorem Save.fits_of_temp {v : Save} {stage : Stage} {temp : Path} {d d' : Disk} (h : stage.temp? = some temp)
    (htemp : ∃ name, Disk.IsTempName name ∧ temp = (d.absolute v.dir).child name)
    (hdir : d'.absolute v.dir = d.absolute v.dir) : v.Fits stage d' := by
  obtain ⟨name, hn, rfl⟩ := htemp
  intro temp' ht
  obtain rfl := Option.some.inj (h.symm.trans ht)
  exact ⟨name, hn, by rw [hdir]⟩

/-- The step spares the place, and the temporary file is where it belongs behind the step, too. -/
def Save.Evades (v : Save) (place : List String) (stage : Stage) (d : Disk) : Prop :=
  Spares place d (v.step stage .none d).2 ∧ v.Fits (v.step stage .none d).1 (v.step stage .none d).2

theorem Save.evades_of_step {v : Save} {place : List String} {stage stage' : Stage} {d d' : Disk}
    (h : v.step stage .none d = (stage', d')) (hs : Spares place d d') (hfits : v.Fits stage' d') :
    v.Evades place stage d := by
  rw [Evades, h]
  exact ⟨hs, hfits⟩

theorem Save.temp_ne_target (v : Save) {d : Disk} {temp : Path}
    (h : ∃ name, Disk.IsTempName name ∧ temp = (d.absolute v.dir).child name) :
    (d.absolute temp).names ≠ (d.absolute v.target).names := by
  have htarget : (d.absolute v.target).names = (d.absolute v.dir).names ++ [recipeFile] := by
    rw [target, Disk.absolute_child d _ isEntry_recipeFile.single (by decide),
      Path.names_child _ isEntry_recipeFile.single]
  obtain ⟨name, hn, rfl⟩ := h
  rw [htarget]
  rcases hn.cases with rfl | ⟨hs, cs, hcs⟩
  · rw [Path.child_empty, Disk.names_absolute_absolute]
    exact fun h => by simpa using congrArg List.length h
  · have hdots : name ≠ ".." := by
      rintro rfl
      cases hcs
    rw [Disk.absolute_child d _ hs hdots, Path.names_child _ hs, Disk.names_absolute_absolute]
    intro h
    obtain rfl : name = recipeFile := by simpa using List.append_cancel_left h
    cases hcs

namespace Store

variable {s : Store} {v : Save} {a b id : String} {d d' : Disk} {w w' w'' : Workspace}

/-- The operation is on the project. -/
def Op.On (id : String) : Op → Prop
  | .save r => r.project.id = id
  | .load id' | .saveAsset id' _ _ | .listAssets id' | .ensure id' => id' = id
  | .create _ _ _ | .list => False

/-- Where the directory of a project is. -/
def place (s : Store) (id : String) (d : Disk) : List String :=
  (d.absolute (s.entryPath id)).names

/-- No open file is in the directory of the project, and the root of the store is a directory, or it will
come to be one where its path says now. -/
structure Clear (s : Store) (id : String) (d : Disk) : Prop where
  cwd : ∀ x ∈ d.cwd, IsPlain x
  held : ∀ t, d.held = some t → ¬ s.place id d <+: t
  root : (∃ place, d.LeadsTo s.root place) ∨ (∀ x ∈ s.root.names, IsPlain x) ∧ IsPlain id

theorem place_eq (s : Store) (d : Disk) (hid : Path.IsSingle id ∧ id ≠ "..") :
    s.place id d = (d.absolute s.root).names ++ [id] := by
  rw [place, entryPath, Disk.absolute_child d s.root hid.1 hid.2, Path.names_child _ hid.1]

theorem Clear.of_spares (h : s.Clear id d) (hs : Spares (s.place id d) d d') : s.Clear id d' := by
  have hplace : s.place id d' = s.place id d := congrArg Path.names (hs.absolute _)
  refine ⟨hs.cwd.symm ▸ h.cwd, fun t ht => ?_, ?_⟩
  · rw [hplace]
    rcases hs.held t ht with ht | ht
    · exact h.held t ht
    · exact ht
  · rcases h.root with ⟨place, es, hroot⟩ | hplain
    · left
      refine ⟨place, ?_⟩
      rw [Disk.LeadsTo, hs.start]
      exact Disk.walk_dir_keepsDirs hs.dirs hroot
    · exact .inr hplain

/-- The directory of the project is spared. -/
def Guards (s : Store) (id : String) (d d' : Disk) : Prop :=
  s.Clear id d → Spares (s.place id d) d d'

theorem Guards.refl (s : Store) (id : String) (d : Disk) : s.Guards id d d :=
  fun _ => .refl _ d

theorem Guards.trans {d'' : Disk} (h : s.Guards id d d') (h' : s.Guards id d' d'') :
    s.Guards id d d'' := by
  intro hd
  have hs := h hd
  have hs' := h' (hd.of_spares hs)
  rw [place, hs.absolute] at hs'
  exact hs.trans hs'

/-- The directory of the project is spared, and the clock stays. -/
structure Isolates (s : Store) (id : String) (w w' : Workspace) : Prop where
  now : w'.now = w.now
  disk : s.Guards id w.disk w'.disk

theorem Isolates.refl (s : Store) (id : String) (w : Workspace) : s.Isolates id w w :=
  ⟨rfl, .refl s id w.disk⟩

theorem Isolates.trans (h : s.Isolates id w w') (h' : s.Isolates id w' w'') : s.Isolates id w w'' :=
  ⟨h'.now.trans h.now, h.disk.trans h'.disk⟩

theorem isolates_onDisk {α : Type} {x : DiskM α} (h : Preserves (s.Guards id) x)
    (failure : DiskFault → Failure) : Preserves (s.Isolates id) (WorkM.onDisk failure x) := by
  intro w
  rcases hx : x.run w.disk with ⟨e | a, d⟩
  · rw [WorkM.run_onDisk_error hx]
    exact ⟨rfl, h.of_run hx⟩
  · rw [WorkM.run_onDisk_ok hx]
    exact ⟨rfl, h.of_run hx⟩

theorem isolates_writeLine (w : Workspace) (x : Log.Sink × String) :
    s.Isolates id w (w.writeLine x) := by
  obtain ⟨_ | path, line⟩ := x
  · exact ⟨rfl, .refl s id w.disk⟩
  · exact ⟨rfl, fun hd => (Disk.grown_append _ _).spares hd.held⟩

theorem isolates_log (severity : Log.Severity) (source message : String) :
    Preserves (s.Isolates id) (WorkM.log severity source message : StoreM Unit) := by
  intro w
  rw [WorkM.run_log]
  exact Workspace.rel_emit (Isolates.refl s id) Isolates.trans isolates_writeLine w _

theorem isolates_readOnly {α : Type} {x : StoreM α} (h : ReadOnly x) : Preserves (s.Isolates id) x :=
  h.preserves (Isolates.refl s id)

theorem not_below_of_ancestor {q : Path} {l : List String} (hb : Path.IsSingle b ∧ b ≠ "..")
    (hd : s.Clear b d) (hanchor : q.anchor = s.root.anchor) (hnames : q.names <+: s.root.names)
    (hq : d.Finds q (.absent l)) : ¬ s.place b d <+: l := by
  have hstart : d.start q = d.start s.root := by
    rw [Disk.start, Disk.start, Path.isAbsolute, Path.isAbsolute, hanchor]
  obtain ⟨rest, hrest⟩ := hnames
  rcases hd.root with ⟨place, es, hroot⟩ | ⟨hplain, -⟩
  · -- Nothing is new, as the root is there.
    have hq := hq.leads
    rw [hstart] at hq
    rw [← hrest] at hroot
    by_cases hr : rest = []
    · rw [hr, List.append_nil, hq] at hroot
      cases hroot
    · obtain ⟨l', n, hfound, -⟩ := Disk.walk_split hr hroot
      rw [hq] at hfound
      cases hfound
  · have hdots : ".." ∉ s.root.names := Disk.no_dots_of_plain hplain
    have hplace : l = d.start s.root ++ q.names := by
      rw [← hstart]
      refine Disk.place_of_walk (fun h => hdots ?_) hq.leads
      rw [← hrest]
      exact List.mem_append_left rest h
    intro h
    have hlength := h.length_le
    rw [place_eq s d hb, Disk.names_absolute hd.cwd, Disk.placeOf_of_no_dots _ hdots, hplace, ← hrest] at hlength
    simp only [List.length_append, List.length_singleton] at hlength
    omega

section

variable (ha : Path.IsSingle a ∧ a ≠ "..") (hb : Path.IsSingle b ∧ b ≠ "..") (hab : a ≠ b)

include ha hb hab

theorem apart_places (s : Store) (d : Disk) : Apart (s.place a d) (s.place b d) := by
  rw [place_eq s d ha, place_eq s d hb]
  exact apart_entries _ hab

theorem leadsApart {p : Path} (hd : s.Clear b d) (hp : d.Inside (s.place a d) p) :
    d.LeadsApart p (s.place b d) :=
  hp.leadsApart hd.cwd (apart_places ha hb hab s d)

theorem guards_makeDirs : Preserves (s.Guards b) (Disk.makeDirs (s.assetsPath a)) := by
  have hassets : s.assetsPath a = ⟨s.root.anchor, s.root.names ++ [a, Save.assetsDir]⟩ := by
    rw [assetsPath, entryPath, Path.child_of_single _ Save.isEntry_assetsDir.single,
      Path.child_of_single _ ha.1, List.append_assoc]
    rfl
  refine Disk.preserves_makeDirs (Guards.refl s b) Guards.trans fun q hanchor hq d hd => ?_
  refine Disk.spares_mkdir fun l hl => ?_
  rw [hassets] at hanchor hq
  have hinside : d.Inside (s.place a d) q → ¬ s.place b d <+: l := fun h =>
    (leadsApart ha hb hab hd h _ hl.locate).below
  rcases List.prefix_or_prefix_of_prefix hq (List.prefix_append s.root.names _) with h | ⟨t, ht⟩
  · exact not_below_of_ancestor hb hd hanchor h hl
  · rw [← ht, List.prefix_append_right_inj] at hq
    obtain ⟨anchor, names⟩ := q
    obtain rfl : anchor = s.root.anchor := hanchor
    obtain rfl : s.root.names ++ t = names := ht
    -- The names are those of the root, of the project or of its directory for files.
    rcases List.prefix_cons_iff.1 hq with rfl | ⟨u, rfl, hu⟩
    · rw [List.append_nil] at hl
      exact not_below_of_ancestor hb hd rfl (List.prefix_refl _) hl
    · rcases List.prefix_cons_iff.1 hu with rfl | ⟨v, rfl, hv⟩
      · refine hinside ?_
        have hentry : (⟨s.root.anchor, s.root.names ++ [a]⟩ : Path) = s.entryPath a :=
          (Path.child_of_single _ ha.1).symm
        rw [hentry]
        exact List.prefix_refl _
      · refine hinside ?_
        rw [List.prefix_nil.1 hv, ← hassets]
        exact Disk.Inside.child (List.prefix_refl _)
          (.inr (.inr ⟨Save.isEntry_assetsDir.single, by decide⟩))

omit ha hb hab in
theorem inside_dir (hv : v.dir = s.entryPath a) : d.Inside (s.place a d) v.dir := by
  rw [hv]
  exact List.prefix_refl _

theorem temp_leadsApart {temp : Path} (hv : v.dir = s.entryPath a) (hd : s.Clear b d)
    (htemp : ∃ name, Disk.IsTempName name ∧ temp = (d.absolute v.dir).child name) :
    d.LeadsApart temp (s.place b d) := by
  obtain ⟨name, hn, rfl⟩ := htemp
  exact ((inside_dir hv).temp hn).leadsApart hd.cwd (apart_places ha hb hab s d)

theorem evades_start (hv : v.dir = s.entryPath a) (hd : s.Clear b d) : v.Evades (s.place b d) .start d := by
  have hs := guards_makeDirs ha hb hab d hd
  rw [assetsPath, ← hv] at hs
  rcases hr : (Disk.makeDirs (v.dir.child Save.assetsDir)).run d with ⟨e | u, d'⟩ <;> rw [hr] at hs
  · exact Save.evades_of_step (Save.step_start_error hr) hs (Save.fits_of_none rfl d')
  · exact Save.evades_of_step (Save.step_start_ok hr) hs (Save.fits_of_none rfl d')

theorem evades_prepared (hv : v.dir = s.entryPath a) (hd : s.Clear b d) :
    v.Evades (s.place b d) .prepared d := by
  cases ht : v.text with
  | error e =>
    exact Save.evades_of_step (Save.step_prepared_refused ht) (.refl _ d) (Save.fits_of_none rfl d)
  | ok text =>
    have hs := Disk.spares_createTemp (inside_dir hv) hd.cwd (apart_places ha hb hab s d)
    rcases hr : (Disk.createTemp v.dir).run d with ⟨e | temp, d'⟩ <;> rw [hr] at hs
    · exact Save.evades_of_step (Save.step_prepared_error ht hr) hs (Save.fits_of_none rfl d')
    · exact Save.evades_of_step (Save.step_prepared_ok ht hr) hs
        (Save.fits_of_temp rfl (Disk.createTemp_eq_ok hr) (hs.absolute _))

theorem evades_reserved {temp : Path} (hv : v.dir = s.entryPath a) (hd : s.Clear b d)
    (htemp : ∃ name, Disk.IsTempName name ∧ temp = (d.absolute v.dir).child name) :
    v.Evades (s.place b d) (.reserved temp) d := by
  cases ht : v.text with
  | error e =>
    exact Save.evades_of_step (Save.step_reserved_refused ht) (.refl _ d) (Save.fits_of_none rfl d)
  | ok text =>
    have hs := Disk.spares_write (temp_leadsApart ha hb hab hv hd htemp) (.bytes text.toUTF8) 0o644 .none
    rcases hr : (Disk.writeText temp text).run d with ⟨e | u, d'⟩ <;> rw [← Disk.writeText, hr] at hs
    · exact Save.evades_of_step (Save.step_reserved_error ht hr) hs (Save.fits_of_temp rfl htemp (hs.absolute _))
    · exact Save.evades_of_step (Save.step_reserved_ok ht hr) hs (Save.fits_of_temp rfl htemp (hs.absolute _))

theorem evades_filled {temp : Path} (hv : v.dir = s.entryPath a) (hd : s.Clear b d)
    (htemp : ∃ name, Disk.IsTempName name ∧ temp = (d.absolute v.dir).child name) :
    v.Evades (s.place b d) (.filled temp) d := by
  have htarget : d.LeadsApart v.target (s.place b d) :=
    ((inside_dir hv).child (.inr (.inr ⟨Save.isEntry_recipeFile.single, by decide⟩))).leadsApart hd.cwd
      (apart_places ha hb hab s d)
  have hs := Disk.spares_rename (temp_leadsApart ha hb hab hv hd htemp) htarget fun spot spot' h h' => by
    rw [Disk.place_eq_absolute hd.cwd (Disk.walk_of_locate h),
      Disk.place_eq_absolute hd.cwd (Disk.walk_of_locate h')]
    exact v.temp_ne_target htemp
  rcases hr : (Disk.rename temp v.target).run d with ⟨e | u, d'⟩ <;> rw [hr] at hs
  · exact Save.evades_of_step (Save.step_filled_error hr) hs (Save.fits_of_temp rfl htemp (hs.absolute _))
  · exact Save.evades_of_step (Save.step_filled_ok hr) hs (Save.fits_of_none rfl d')

theorem evades_broken {temp : Path} {cause : DiskFault} (hv : v.dir = s.entryPath a) (hd : s.Clear b d)
    (htemp : ∃ name, Disk.IsTempName name ∧ temp = (d.absolute v.dir).child name) :
    v.Evades (s.place b d) (.broken temp cause) d := by
  have hs := Disk.spares_unlink (temp_leadsApart ha hb hab hv hd htemp)
  rcases hr : (Disk.unlink temp).run d with ⟨e | u, d'⟩ <;> rw [hr] at hs
  · exact Save.evades_of_step (Save.step_broken_error hr) hs (Save.fits_of_none rfl d')
  · exact Save.evades_of_step (Save.step_broken_ok hr) hs (Save.fits_of_none rfl d')

theorem evades_step {stage : Save.Stage} (hv : v.dir = s.entryPath a) (hd : s.Clear b d)
    (hfits : v.Fits stage d) : v.Evades (s.place b d) stage d := by
  cases stage with
  | start => exact evades_start ha hb hab hv hd
  | prepared => exact evades_prepared ha hb hab hv hd
  | reserved temp => exact evades_reserved ha hb hab hv hd (hfits temp rfl)
  | filled temp => exact evades_filled ha hb hab hv hd (hfits temp rfl)
  | broken temp cause => exact evades_broken ha hb hab hv hd (hfits temp rfl)
  | finished result => exact ⟨.refl _ d, Save.fits_of_none rfl d⟩

theorem spares_advance (n : Nat) {stage : Save.Stage} (hv : v.dir = s.entryPath a)
    (hd : s.Clear b d) (hfits : v.Fits stage d) : Spares (s.place b d) d (v.advance n stage .none d).2 := by
  induction n generalizing stage d with
  | zero => exact .refl _ d
  | succ n ih =>
    obtain ⟨hs, hfits'⟩ := evades_step ha hb hab hv hd hfits
    have hrest := ih (hd.of_spares hs) hfits'
    rw [place, hs.absolute] at hrest
    exact hs.trans hrest

theorem guards_save (hv : v.dir = s.entryPath a) (d : Disk) :
    s.Guards b d (v.run .none d).2 := by
  intro hd
  have hfits : v.Fits .start d := fun temp ht => by cases ht
  have hs := spares_advance ha hb hab Save.stages hv hd hfits
  simp only [Save.run, bind, StateT.bind]
  rcases hr : v.advance Save.stages .start .none d with ⟨stage, d'⟩
  rw [hr] at hs
  cases stage <;> exact hs

theorem isolates_ensure (s : Store) : Preserves (s.Isolates b) (s.ensureProjectDir a) := by
  refine .bind Isolates.trans (isolates_readOnly ?_) fun dir => ?_
  · exact (readOnly_checkName a).bind fun _ => .pure _
  · exact .bind Isolates.trans (isolates_onDisk (guards_makeDirs ha hb hab) _) fun _ =>
      .pure (Isolates.refl s b) _

theorem isolates_saveRecipe (s : Store) {r : Recipe} (hr : r.project.id = a) (hname : isName a = true) :
    Preserves (s.Isolates b) (s.saveRecipe r) := by
  intro w
  have hsave := guards_save (s := s) ha hb hab (v := s.saving r w.now) (by rw [saving, hr]) w.disk
  rcases hrun : (s.saving r w.now).run .none w.disk with ⟨result, d⟩
  rw [hrun] at hsave
  have hw : s.Isolates b w { w with disk := d } := ⟨rfl, hsave⟩
  rw [run_saveRecipe_eq (refusal_of_isName (hr ▸ hname)) hrun, Save.logged]
  cases (s.saving r w.now).record? result with
  | none => exact hw
  | some rec => exact hw.trans (isolates_log rec.severity rec.source rec.message _)

theorem isolates_saveAsset (s : Store) (filename : String) (bytes : ByteArray) :
    Preserves (s.Isolates b) (s.saveAsset a filename bytes) := by
  by_cases hf : isName filename = true
  · have hwrite : Preserves (s.Guards b)
        (Disk.write ((s.assetsPath a).child filename) (.bytes bytes)) := fun d hd => by
      refine Disk.spares_write (leadsApart ha hb hab hd (Disk.Inside.child ?_ ?_)) _ _ _
      · exact Disk.Inside.child (List.prefix_refl _)
          (.inr (.inr ⟨Save.isEntry_assetsDir.single, by decide⟩))
      · by_cases hdot : filename = "."
        · exact .inr (.inl hdot)
        · exact .inr (.inr (single_of_isName hf hdot))
    refine .bind Isolates.trans (isolates_readOnly (readOnly_checkName filename)) fun _ => ?_
    refine .bind Isolates.trans (isolates_ensure ha hb hab s) fun _ => ?_
    refine .bind Isolates.trans (isolates_onDisk hwrite _) fun _ => ?_
    exact .bind Isolates.trans (isolates_log _ _ _) fun _ => .pure (Isolates.refl s b) _
  · intro w
    rw [saveAsset, run_bind_error (run_checkName_refused hf w)]
    exact .refl s b w

theorem isolates_perform (s : Store) {op : Op} (hop : op.On a) (hname : isName a = true) :
    Preserves (s.Isolates b) (s.perform op) := by
  cases op with
  | create | list => exact hop.elim
  | save r => exact (isolates_saveRecipe ha hb hab s hop hname).map _
  | load id => exact (isolates_readOnly (readOnly_loadRecipe s id)).map _
  | saveAsset id filename bytes =>
    obtain rfl : id = a := hop
    exact (isolates_saveAsset ha hb hab s filename bytes).map _
  | listAssets id => exact (isolates_readOnly (readOnly_listAssets s id)).map _
  | ensure id =>
    obtain rfl : id = a := hop
    exact (isolates_ensure ha hb hab s).map _

end

/-! ### What a client sees -/

/-- A client is told the same about the project, and reads the same bytes from every path below its
directory. -/
structure SameView (s : Store) (id : String) (w w' : Workspace) : Prop where
  recipe : ((s.loadRecipe id).run w').1 = ((s.loadRecipe id).run w).1
  assets : ((s.listAssets id).run w').1 = ((s.listAssets id).run w).1
  bytes : ∀ {more p}, Disk.Below (s.entryPath id) more p →
    ((Disk.read p).run w'.disk).1 = ((Disk.read p).run w.disk).1

/-- Where the directory of a project is spared, all paths below it show what they showed. -/
theorem shown_below {more : List String} {p : Path} (hid : Path.IsSingle id ∧ id ≠ "..")
    (hd : s.Clear id d) (hs : Spares (s.place id d) d d')
    (hp : Disk.Below (s.entryPath id) more p) : d'.shown p = d.shown p := by
  have hentry : Disk.Below s.root [id] (s.entryPath id) :=
    (Disk.Below.refl s.root).child hid.1 hid.2
  have hstart : d.start p = d.start s.root := by rw [hp.start, hentry.start]
  have hnames : p.names = s.root.names ++ id :: more := by
    rw [hp.names, hentry.names, List.append_assoc]
    rfl
  rw [Disk.shown, Disk.shown, Disk.locate, Disk.locate]
  split
  · rfl
  · rw [hs.start, hstart, hnames]
    rcases hd.root with ⟨place, es, hroot⟩ | ⟨hplain, hid'⟩
    · obtain ⟨es', hroot'⟩ := Disk.walk_dir_keepsDirs hs.dirs hroot
      have hplace : s.place id d = place ++ [id] := by
        rw [place_eq s d hid, ← Disk.place_eq_absolute hd.cwd hroot]
        rfl
      rw [Disk.walk_append hroot, Disk.walk_append hroot']
      exact Disk.shown_walk_entry (Disk.get_of_walk hroot) (Disk.get_of_walk hroot')
        (hplace ▸ hs.node) hid.2 hp.down
    · have hplain' : ∀ x ∈ s.root.names ++ [id], IsPlain x := fun x hx => by
        rcases List.mem_append.1 hx with hx | hx
        · exact hplain x hx
        · exact List.mem_singleton.1 hx ▸ hid'
      have hplace : s.place id d = d.start s.root ++ (s.root.names ++ [id]) := by
        rw [place_eq s d hid, Disk.names_absolute hd.cwd,
          Disk.placeOf_of_no_dots _ (Disk.no_dots_of_plain hplain),
          List.append_assoc]
      have hsplit : s.root.names ++ id :: more = s.root.names ++ [id] ++ more := by simp
      rw [hsplit]
      exact Disk.shown_walk_plain (hplace ▸ hs.node) (hplace ▸ hs.files) hplain' hp.down

theorem answer_checkName (name : String) :
    ((checkName name).run w').1 = ((checkName name).run w).1 := by
  rw [checkName]
  split <;> rfl

theorem answer_readRecipe {path : Path} (hnow : w'.now = w.now)
    (h : w'.disk.shown path = w.disk.shown path) :
    ((readRecipe path).run w').1 = ((readRecipe path).run w).1 := by
  rw [readRecipe_eq]
  refine (WorkM.readOnly_onDisk (Disk.readOnly_isFile path)).answer_bind
    (WorkM.answer_onDisk (Disk.answer_isFile h)) fun isFile => ?_
  cases isFile with
  | false => rfl
  | true =>
    refine (WorkM.readOnly_onDisk (Disk.readOnly_read path)).answer_bind
      (WorkM.answer_onDisk (Disk.answer_read h)) fun content => ?_
    have hreads : ReadOnly (WorkM.now : StoreM Timestamp) := fun _ => rfl
    refine hreads.answer_bind (congrArg Except.ok hnow) fun now => ?_
    cases parseRecipe path now content.toBytes <;> rfl

theorem answer_assetsIn {d d' : Disk} {dir : Path} (h : ∀ x,
    ((Disk.probe (dir.entry x)).run d').1.map (·.filter Node.isFile) =
      ((Disk.probe (dir.entry x)).run d).1.map (·.filter Node.isFile)) (names : List String) :
    ((assetsIn dir names).run d').1 = ((assetsIn dir names).run d).1 := by
  induction names with
  | nil => rfl
  | cons name rest ih =>
    have hname := h name
    have hreads : ReadOnly (Disk.probe (dir.entry name)) := Disk.readOnly_probe _
    rcases hp : (Disk.probe (dir.entry name)).run d with ⟨e | found, d₁⟩ <;>
      rcases hp' : (Disk.probe (dir.entry name)).run d' with ⟨e' | found', d₁'⟩ <;> rw [hp, hp'] at hname
    case error.error =>
      rw [assetsIn, run_bind_error hp, run_bind_error hp', show e' = e from Except.error.inj hname]
    case ok.ok =>
      obtain rfl := hreads.run_eq hp
      obtain rfl := hreads.run_eq hp'
      have hfiles : found'.filter Node.isFile = found.filter Node.isFile := Except.ok.inj hname
      rw [assetsIn, run_bind_ok hp, run_bind_ok hp', hfiles]
      exact (readOnly_assetsIn dir rest).answer_bind ih fun _ => rfl
    all_goals cases hname

theorem answer_listAssets (s : Store) (id : String)
    (h : w'.disk.shown (s.assetsPath id) = w.disk.shown (s.assetsPath id)) :
    ((s.listAssets id).run w').1 = ((s.listAssets id).run w).1 := by
  rw [listAssets, assetsDir, bind_assoc]
  refine (readOnly_checkName id).answer_bind (answer_checkName id) fun _ => ?_
  rw [pure_bind]
  refine (WorkM.readOnly_onDisk (Disk.readOnly_isDir _)).answer_bind
    (WorkM.answer_onDisk (Disk.answer_isDir h)) fun isDir => ?_
  cases isDir with
  | false => rfl
  | true =>
    have hanswer := Disk.answer_list h
    change ((WorkM.onDisk .disk (Disk.list _) >>= fun entries =>
      WorkM.onDisk .disk (assetsIn _ (entries.map (·.1))) : StoreM (List Asset)).run w').1 =
        ((WorkM.onDisk .disk (Disk.list _) >>= fun entries =>
          WorkM.onDisk .disk (assetsIn _ (entries.map (·.1))) : StoreM (List Asset)).run w).1
    rcases hl : (Disk.list (s.assetsPath id)).run w.disk with ⟨e | entries, d⟩ <;>
      rcases hl' : (Disk.list (s.assetsPath id)).run w'.disk with ⟨e' | entries', d'⟩ <;> rw [hl, hl'] at hanswer <;>
      cases hanswer
    · rw [run_bind_error (WorkM.run_onDisk_error hl), run_bind_error (WorkM.run_onDisk_error hl')]
    · obtain ⟨rfl, l, es, hfound, -⟩ := Disk.list_eq_ok hl
      obtain rfl := (Disk.readOnly_list _).run_eq hl'
      obtain ⟨l', hfound'⟩ := Disk.finds_of_shown hfound.noNul (h.trans hfound.shown)
      rw [run_bind_ok (WorkM.run_onDisk_ok hl), run_bind_ok (WorkM.run_onDisk_ok hl')]
      exact WorkM.answer_onDisk (answer_assetsIn (Disk.answer_probe_below hfound hfound') _)

/-- Whoever is shown the same below the directory of a project has the same view of it. -/
theorem sameView_of_shown (hnow : w'.now = w.now)
    (h : ∀ {more p}, Disk.Below (s.entryPath id) more p → w'.disk.shown p = w.disk.shown p) :
    s.SameView id w w' := by
  have hself := Disk.Below.refl (s.entryPath id)
  have hrecipe := h (hself.child Save.isEntry_recipeFile.single (by decide))
  have hassets := h (hself.child Save.isEntry_assetsDir.single (by decide))
  refine ⟨?_, answer_listAssets s id hassets, fun hp => Disk.answer_read (h hp)⟩
  exact (readOnly_checkName id).answer_bind (answer_checkName id) fun _ =>
    answer_readRecipe hnow hrecipe

/-- An operation on a project leaves the view of every other project, and the directories of both are
different ones directly below the root. No project is to be named by a single dot, and the log must not be
in the directory of the other one. -/
theorem projects_isolated {op : Op} (ha : isName a = true) (hb : isName b = true) (hab : a ≠ b)
    (hda : a ≠ ".") (hdb : b ≠ ".") (hop : op.On a) (hclear : s.Clear b w.disk) :
    s.SameView b w ((s.perform op).run w).2 ∧
      (s.entryPath a).parent = s.root ∧ (s.entryPath b).parent = s.root ∧
      s.entryPath a ≠ s.root ∧ s.entryPath a ≠ s.entryPath b := by
  have ha' := single_of_isName ha hda
  have hb' := single_of_isName hb hdb
  have hw := isolates_perform ha' hb' hab s hop ha w
  have hview : s.SameView b w ((s.perform op).run w).2 :=
    sameView_of_shown hw.now fun hp => shown_below hb' hclear (hw.disk hclear) hp
  refine ⟨hview, Path.parent_child _ ha'.1, Path.parent_child _ hb'.1, fun h => ?_, fun h => ?_⟩
  · have hlength := congrArg (fun p => p.names.length) h
    simp [entryPath, Path.names_child _ ha'.1] at hlength
  · have hnames := congrArg Path.names h
    rw [entryPath, entryPath, Path.names_child _ ha'.1, Path.names_child _ hb'.1] at hnames
    exact hab (by simpa using List.append_cancel_left hnames)

/-- A store in the directory `projects` of a workspace that has two projects and nothing else. -/
def sampleProjects : Store := ⟨⟨.relative, ["projects"]⟩⟩

def twoProjects : Workspace where
  disk := {
    root := .dir [("projects", .dir [
      ("p", .dir [("assets", .dir [("f", .file 0o644 (.bytes ⟨#[1]⟩))])]),
      ("assets", .dir [("recipe.json", .file 0o600 (.bytes ⟨#[1]⟩))])])]
    cwd := [] }
  tempDir := ⟨.root, ["tmp"]⟩
  now := .epoch

theorem clear_twoProjects (hplain : IsPlain id) : sampleProjects.Clear id twoProjects.disk :=
  ⟨nofun, nofun, .inr ⟨by simpa [sampleProjects] using ⟨by decide, by decide⟩, hplain⟩⟩

theorem projects_isolated_upload :
    sampleProjects.SameView "p" twoProjects
      ((sampleProjects.perform (.saveAsset "q" "f" ⟨#[2]⟩)).run twoProjects).2 := by
  have hop : (Op.saveAsset "q" "f" ⟨#[2]⟩).On "q" := rfl
  exact (projects_isolated (by decide) (by decide) (by decide) (by decide) (by decide) hop
    (clear_twoProjects ⟨by decide, by decide⟩)).1

/-- The files of the project named by a single dot are kept in the directory of the project `assets`. -/
theorem dot_replaces_recipe :
    isName "." = true ∧ isName "assets" = true ∧ sampleProjects.Clear "assets" twoProjects.disk ∧
      ¬ sampleProjects.SameView "assets" twoProjects
        ((sampleProjects.perform (.saveAsset "." "recipe.json" ⟨#[2]⟩)).run twoProjects).2 := by
  refine ⟨by decide, by decide, clear_twoProjects ⟨by decide, by decide⟩, fun h => ?_⟩
  have hassets : sampleProjects.assetsPath "." = ⟨.relative, ["projects", "assets"]⟩ := by decide
  have hrecipe : (sampleProjects.assetsPath ".").child "recipe.json" =
      ⟨.relative, ["projects", "assets", "recipe.json"]⟩ := by decide
  have hdir : twoProjects.disk.Finds ⟨.relative, ["projects", "assets"]⟩
      (.found ["projects", "assets"] (.dir [("recipe.json", .file 0o600 (.bytes ⟨#[1]⟩))])) :=
    ⟨by decide, by decide, rfl⟩
  have hfile : twoProjects.disk.Finds ⟨.relative, ["projects", "assets", "recipe.json"]⟩
      (.found ["projects", "assets", "recipe.json"] (.file 0o600 (.bytes ⟨#[1]⟩))) :=
    ⟨by decide, by decide, rfl⟩
  rw [← hassets] at hdir
  rw [← hrecipe] at hfile
  have hensure : (sampleProjects.ensureProjectDir ".").run twoProjects =
      (.ok (sampleProjects.entryPath "."), twoProjects) := by
    rw [ensureProjectDir, run_bind_ok (run_projectDir _ (by decide) _),
      run_bind_ok (WorkM.run_onDisk_ok (Disk.run_makeDirs_found hdir))]
    rfl
  have hrun : ((sampleProjects.perform (.saveAsset "." "recipe.json" ⟨#[2]⟩)).run twoProjects).2.disk =
      twoProjects.disk.setAt ["projects", "assets", "recipe.json"]
        (some (.file 0o600 (.bytes ⟨#[2]⟩))) := by
    have hwrite := Disk.run_write_found hfile (.bytes ⟨#[2]⟩) 0o644
    rw [perform, run_map, saveAsset, run_bind_ok (run_checkName (by decide) _), run_bind_ok hensure,
      run_bind_ok (WorkM.run_onDisk_ok hwrite), run_bind_ok (WorkM.run_log _ _ _ _)]
    rfl
  have hbelow : Disk.Below (sampleProjects.entryPath "assets") ["recipe.json"]
      ((sampleProjects.assetsPath ".").child "recipe.json") := by
    rw [hrecipe]
    exact ⟨by decide, by decide, by decide⟩
  have hafter := h.bytes hbelow
  rw [hrun, Disk.run_read (hfile.setAt_file _), Disk.run_read hfile] at hafter
  simp at hafter

end Store

end Provision
