import Provision.Proofs.Disk.Refusals
import Provision.Proofs.Store.Listing
import Provision.Proofs.Store.Succeeding

/-!
# Failures that are no faults of the store

What goes wrong in an operation of a store should come out as a fault of the store. `EscapesWhere` tells for every
disk, id, file name and recipe, and whatever the system refuses, when it does not (`Escapes`): where a directory
cannot be made, where the system does not tell what is at a path, where a name has a null byte, and where the bytes or
the recipe are beyond the reader or the writer. Everything else that the system refuses is a fault of the store.
-/

namespace Provision

namespace Failure

@[simp] theorem isStoreFault_wrapping (fault : DiskFault → StoreFault) (e : DiskFault) :
    (wrapping fault e).isStoreFault = e.isRefusal := by
  rw [wrapping]
  split <;> simp_all [isStoreFault]

end Failure

namespace Save

variable {v : Save} {d d' d₁ : Disk} {text : String} {temp : Path} {cause : DiskFault} {u : Unit}
  {result : Except Failure Unit} {troubles : Disk.Troubles}

theorem advance_broken_refused (hn : temp.hasNul = false) (hcause : cause.isRefusal = true) (n : Nat) :
    ∃ e d', e.isRefusal = true ∧
      v.advance (n + 1) (.broken temp cause) troubles d = (.finished (.error (v.failed e)), d') := by
  rcases hunlink : (Disk.unlink temp troubles).run d with ⟨e | u, d₁⟩
  · exact ⟨e, d₁, Disk.onlyRefuses_unlink hn _ _ _ hunlink,
      (advance_succ (step_broken_error hunlink) n).trans (advance_finished _ n)⟩
  · exact ⟨cause, d₁, hcause, (advance_succ (step_broken_ok hunlink) n).trans (advance_finished _ n)⟩

/-- Once the directories are made, a text is written, or the system refuses something on the way. -/
theorem run_cases (hdirs : (Disk.makeDirs (v.dir.child assetsDir) troubles).run d = (.ok u, d₁))
    (htext : v.text = .ok text) (hn : (d₁.absolute v.dir).hasNul = false) :
    (v.run troubles d).1 = .ok () ∨ ∃ e, e.isRefusal = true ∧ (v.run troubles d).1 = .error (v.failed e) := by
  have hone := advance_succ (step_start_ok hdirs) 4
  rcases htemp : (Disk.createTemp v.dir troubles).run d₁ with ⟨e | temp, d₂⟩
  · have hrun := run_of_advance (hone.trans ((advance_succ (step_prepared_error htext htemp) 3).trans
      (advance_finished _ 3)))
    exact .inr ⟨e, Disk.refusal_of_createTemp hn htemp, by rw [hrun]⟩
  have htwo := hone.trans (advance_succ (step_prepared_ok htext htemp) 3)
  have hntemp : temp.hasNul = false := by
    obtain ⟨name, hname, rfl⟩ := Disk.createTemp_eq_ok htemp
    exact hname.noNul_child hn
  rcases hwrite : (Disk.writeText temp text troubles).run d₂ with ⟨e | u, d₃⟩
  · have hrefusal := Disk.onlyRefuses_write hntemp _ _ _ _ _ hwrite
    obtain ⟨e', d₄, he', hbroken⟩ := advance_broken_refused (v := v) (d := d₃) hntemp hrefusal 1
    have hrun := run_of_advance (htwo.trans ((advance_succ (step_reserved_error htext hwrite) 2).trans hbroken))
    exact .inr ⟨e', he', by rw [hrun]⟩
  have hthree := htwo.trans (advance_succ (step_reserved_ok htext hwrite) 2)
  rcases hmove : (Disk.rename temp v.target troubles).run d₃ with ⟨e | u, d₄⟩
  · have hrefusal := Disk.onlyRefuses_rename _ _ _ _ _ hmove
    obtain ⟨e', d₅, he', hbroken⟩ := advance_broken_refused (v := v) (d := d₄) hntemp hrefusal 0
    have hrun := run_of_advance (hthree.trans ((advance_succ (step_filled_error hmove) 1).trans hbroken))
    exact .inr ⟨e', he', by rw [hrun]⟩
  · exact .inl (by rw [run_eq_ok hdirs htext htemp hwrite hmove])

end Save

namespace Store

variable {α β : Type} {s : Store} {x : StoreM α} {g : α → StoreM β} {w w' : Workspace} {a : α} {f : Failure}
  {path : Path} {id name filename : String} {r : Recipe} {bytes : ByteArray} {room : Room} {troubles : Disk.Troubles}

/-- The operation fails, and not with a fault of the store. -/
def Escapes (x : StoreM α) (w : Workspace) : Prop :=
  ∃ f w', x.run w = (.error f, w') ∧ f.isStoreFault = false

theorem not_escapes (h : x.run w = (.ok a, w')) : ¬ Escapes x w := by
  rintro ⟨f, w₁, hrun, -⟩
  cases h.symm.trans hrun

theorem escapes_error (h : x.run w = (.error f, w')) : Escapes x w ↔ f.isStoreFault = false := by
  refine ⟨?_, fun hf => ⟨f, w', h, hf⟩⟩
  rintro ⟨f', w₁, hrun, hf⟩
  cases h.symm.trans hrun
  exact hf

theorem not_escapes_store {fault : StoreFault} (h : x.run w = (.error (.store fault), w')) : ¬ Escapes x w := by
  rw [escapes_error h]
  exact nofun

theorem escapes_bind (h : x.run w = (.ok a, w')) : Escapes (x >>= g) w ↔ Escapes (g a) w' := by
  rw [Escapes, Escapes, run_bind_ok h]

theorem escapes_bind_iff :
    Escapes (x >>= g) w ↔ Escapes x w ∨ ∃ a w', x.run w = (.ok a, w') ∧ Escapes (g a) w' := by
  rcases hx : x.run w with ⟨f | a, w₁⟩
  · rw [escapes_error (run_bind_error hx), escapes_error hx]
    exact (or_iff_left (by rintro ⟨a, w', h, -⟩; cases h)).symm
  · rw [escapes_bind hx, or_iff_right (not_escapes hx)]
    exact ⟨fun h => ⟨a, w₁, rfl, h⟩, by rintro ⟨a, w', h, he⟩; cases h; exact he⟩

theorem escapes_checkName_bind (name : String) (x : StoreM α) (w : Workspace) :
    Escapes (checkName name >>= fun _ => x) w ↔ isName name = true ∧ Escapes x w := by
  by_cases hname : isName name = true
  · rw [escapes_bind (run_checkName hname w)]
    exact (and_iff_right hname).symm
  · have hrefused : (checkName name >>= fun _ => x).run w = (.error (.store (.invalidName name)), w) :=
      run_bind_error (run_checkName_refused hname w)
    exact iff_of_false (not_escapes_store hrefused) fun h => hname h.1

/-! ### Reading -/

theorem escapes_parse_iff (path : Path) (b : ByteArray) :
    Escapes (readRecipe.liftExcept (parseRecipe path w.now b room)) w ↔ (unreadable? b room).isSome = true := by
  rw [parseRecipe, unreadable?]
  cases String.fromUTF8? b with
  | none => exact iff_of_true ⟨_, _, rfl, rfl⟩ rfl
  | some text =>
    dsimp only
    cases Json.read (.within room.reading) text with
    | error e =>
      cases e with
      | malformed => exact iff_of_false (not_escapes_store rfl) Bool.false_ne_true
      | tooManyDigits => exact iff_of_true ⟨_, _, rfl, rfl⟩ rfl
      | tooDeep => exact iff_of_true ⟨_, _, rfl, rfl⟩ rfl
    | ok v =>
      dsimp only
      cases Recipe.ofJson w.now v with
      | ok r => exact iff_of_false (not_escapes rfl) Bool.false_ne_true
      | bad ds => exact iff_of_false (not_escapes_store rfl) Bool.false_ne_true

theorem escapes_readFile_iff (hn : path.hasNul = false) : Escapes (readFile path room troubles) w ↔
    ∃ c, (Disk.read path troubles).run w.disk = (.ok c, w.disk) ∧ (unreadable? c.toBytes room).isSome = true := by
  rw [readFile]
  rcases hread : (Disk.read path troubles).run w.disk with ⟨e | c, d⟩
  · refine iff_of_false ?_ (by rintro ⟨c, h, -⟩; cases h)
    rw [escapes_error (run_bind_error (WorkM.run_onDisk_error hread)), Failure.isStoreFault_wrapping,
      Disk.onlyRefuses_read hn _ _ _ hread]
    exact Bool.false_ne_true.symm
  · obtain rfl := (Disk.readOnly_read path).run_eq hread
    rw [escapes_bind (WorkM.run_onDisk_ok hread), escapes_bind (WorkM.run_now w), escapes_parse_iff]
    refine ⟨fun h => ⟨c, rfl, h⟩, ?_⟩
    rintro ⟨c', h, hc⟩
    cases h
    exact hc

theorem escapes_readRecipe_iff : Escapes (readRecipe path room troubles) w ↔
    Disk.Fails (Disk.isFile path troubles) w.disk ∨
      ∃ c, (Disk.read path troubles).run w.disk = (.ok c, w.disk) ∧ (unreadable? c.toBytes room).isSome = true := by
  rw [readRecipe_eq]
  rcases hfile : (Disk.isFile path troubles).run w.disk with ⟨e | isFile, d⟩
  · rw [escapes_error (run_bind_error (WorkM.run_onDisk_error hfile))]
    exact iff_of_true rfl (.inl ⟨e, d, hfile⟩)
  · obtain rfl := (Disk.readOnly_isFile path).run_eq hfile
    rw [escapes_bind (WorkM.run_onDisk_ok hfile), or_iff_right (Disk.not_fails hfile)]
    cases isFile with
    | true => exact escapes_readFile_iff (Disk.noNul_of_isFile hfile)
    | false =>
      refine iff_of_false (not_escapes_store rfl) ?_
      rintro ⟨c, hread, -⟩
      obtain ⟨-, l, mode, hf⟩ := Disk.read_eq_ok hread
      cases (Disk.isFile_unrefused hfile).symm.trans (Disk.run_isFile_found hf)

theorem escapes_loadRecipe_iff : Escapes (s.loadRecipe id room troubles) w ↔ isName id = true ∧
    (Disk.Fails (Disk.isFile (s.recipePath id) troubles) w.disk ∨
      ∃ c, (Disk.read (s.recipePath id) troubles).run w.disk = (.ok c, w.disk) ∧
        (unreadable? c.toBytes room).isSome = true) := by
  rw [loadRecipe, escapes_checkName_bind, escapes_readRecipe_iff]

theorem escapes_disk_iff {y : DiskM α} : Escapes (WorkM.onDisk .disk y) w ↔ Disk.Fails y w.disk := by
  rcases hy : y.run w.disk with ⟨e | a, d⟩
  · rw [escapes_error (WorkM.run_onDisk_error hy)]
    exact iff_of_true rfl ⟨e, d, hy⟩
  · exact iff_of_false (not_escapes (WorkM.run_onDisk_ok hy)) (Disk.not_fails hy)

theorem fails_assetsIn_iff {d : Disk} (dir : Path) (names : List String) :
    Disk.Fails (assetsIn dir names troubles) d ↔ ∃ x ∈ names, Disk.Fails (Disk.probe (dir.entry x) troubles) d := by
  induction names with
  | nil => exact iff_of_false (Disk.not_fails rfl) (by simp)
  | cons x xs ih =>
    rw [List.exists_mem_cons_iff, ← ih]
    rcases hx : (Disk.probe (dir.entry x) troubles).run d with ⟨e | found, d₁⟩
    · exact iff_of_true ⟨e, d₁, run_bind_error hx⟩ (.inl ⟨e, d₁, hx⟩)
    · obtain rfl := (Disk.readOnly_probe _).run_eq hx
      rw [or_iff_right (Disk.not_fails hx), Disk.Fails, assetsIn, run_bind_ok hx]
      rcases hxs : (assetsIn dir xs troubles).run d with ⟨e | assets, d₁⟩
      · exact iff_of_true ⟨e, d₁, run_bind_error hxs⟩ ⟨e, d₁, hxs⟩
      · refine iff_of_false ?_ (Disk.not_fails hxs)
        rw [run_bind_ok hxs]
        rintro ⟨e, d', h⟩
        cases h

/-- The system refuses to tell whether the path leads to a directory, or to list that, or to look at an entry. -/
def Unlisted (path : Path) (troubles : Disk.Troubles) (d : Disk) : Prop :=
  Disk.Fails (Disk.isDir path troubles) d ∨ (Disk.isDir path troubles).run d = (.ok true, d) ∧
    (Disk.Fails (Disk.list path troubles) d ∨ ∃ es, (Disk.list path troubles).run d = (.ok es, d) ∧
      ∃ x ∈ es.map (·.1), Disk.Fails (Disk.probe (path.entry x) troubles) d)

theorem escapes_listAssets_iff :
    Escapes (s.listAssets id troubles) w ↔ isName id = true ∧ Unlisted (s.assetsPath id) troubles w.disk := by
  rw [listAssets, assetsDir, bind_assoc, escapes_checkName_bind, pure_bind, Unlisted]
  refine and_congr_right fun _ => ?_
  rcases hdir : (Disk.isDir (s.assetsPath id) troubles).run w.disk with ⟨e | isDir, d⟩
  · rw [escapes_error (run_bind_error (WorkM.run_onDisk_error hdir))]
    exact iff_of_true rfl (.inl ⟨e, d, hdir⟩)
  · obtain rfl := (Disk.readOnly_isDir _).run_eq hdir
    rw [escapes_bind (WorkM.run_onDisk_ok hdir), or_iff_right (Disk.not_fails hdir)]
    cases isDir with
    | false => exact iff_of_false (not_escapes_store rfl) (by rintro ⟨h, -⟩; cases h)
    | true =>
      refine (escapes_bind_iff.trans (or_congr escapes_disk_iff ⟨?_, ?_⟩)).trans (and_iff_right rfl).symm
      · rintro ⟨es, w', hlist, h⟩
        obtain ⟨d, hread, rfl⟩ := WorkM.onDisk_eq_ok hlist
        obtain rfl := (Disk.readOnly_list _).run_eq hread
        exact ⟨es, hread, (fails_assetsIn_iff _ _).1 (escapes_disk_iff.1 h)⟩
      · rintro ⟨es, hlist, h⟩
        exact ⟨es, w, WorkM.run_onDisk_ok hlist, escapes_disk_iff.2 ((fails_assetsIn_iff _ _).2 h)⟩

theorem escapes_saveRecipe_iff (hsane : w.disk.Sane) : Escapes (s.saveRecipe r troubles) w ↔ refusal? r = none ∧
    (Disk.Fails (Disk.makeDirs (s.assetsPath r.project.id) troubles) w.disk ∨
      ∃ e, ({ r with updatedAt := w.now } : Recipe).canonical = .error e) := by
  cases hrefusal : refusal? r with
  | some fault =>
    exact iff_of_false (not_escapes_store (run_saveRecipe_refused hrefusal w)) (by simp)
  | none =>
    rw [and_iff_right rfl]
    have hsaving : ∀ {e : WriteFault}, ({ r with updatedAt := w.now } : Recipe).canonical = .error e →
        (s.saving r w.now).text = .error e := fun h => by rw [saving, h]; rfl
    rcases hdirs : (Disk.makeDirs (s.assetsPath r.project.id) troubles).run w.disk with ⟨e | u, d₁⟩
    · rw [escapes_error (run_saveRecipe_eq hrefusal (Save.run_eq_unmade (v := s.saving r w.now) hdirs))]
      exact ⟨fun _ => .inl ⟨e, d₁, hdirs⟩, fun _ => rfl⟩
    · have hmade : ¬ Disk.Fails (Disk.makeDirs (s.assetsPath r.project.id) troubles) w.disk := by
        rintro ⟨e, d', hfails⟩
        cases hdirs.symm.trans hfails
      rw [or_iff_right hmade]
      cases htext : ({ r with updatedAt := w.now } : Recipe).canonical with
      | error e =>
        rw [escapes_error (run_saveRecipe_eq hrefusal (Save.run_eq_unwritten hdirs (hsaving htext)))]
        exact ⟨fun _ => ⟨e, rfl⟩, fun _ => rfl⟩
      | ok text =>
        refine iff_of_false ?_ (by simp)
        have hsaved : (s.saving r w.now).text = .ok (text ++ "\n") := by rw [saving, htext]; rfl
        have hn := Disk.noNul_absolute Save.isEntry_assetsDir.single hsane.tree hdirs
        have hends := Save.run_cases (v := s.saving r w.now) hdirs hsaved hn
        rcases hrun : (s.saving r w.now).run troubles w.disk with ⟨result, d'⟩
        rw [hrun] at hends
        rcases hends with hok | ⟨e, he, hfailed⟩
        · cases hok
          exact not_escapes (run_saveRecipe_eq hrefusal hrun)
        · cases hfailed
          rw [escapes_error (run_saveRecipe_eq hrefusal hrun), Save.failed, Failure.isStoreFault_wrapping, he]
          exact Bool.false_ne_true.symm

theorem hasNul_child_name (p : Path) (h : isName name = true) :
    (p.child name).hasNul = (p.hasNul || name.toList.contains '\x00') := by
  by_cases hdot : name = "."
  · rw [hdot, Path.child_dot]
    exact (Bool.or_false _).symm
  · exact Disk.hasNul_child p (single_of_isName h hdot).1

theorem escapes_saveAsset_iff : Escapes (s.saveAsset id filename bytes troubles) w ↔ isName filename = true ∧
    isName id = true ∧ (Disk.Fails (Disk.makeDirs (s.assetsPath id) troubles) w.disk ∨
      filename.toList.contains '\x00' = true) := by
  rw [saveAsset, escapes_checkName_bind, ensureProjectDir, projectDir, bind_assoc, bind_assoc, escapes_checkName_bind,
    pure_bind, bind_assoc]
  refine and_congr_right fun hfilename => and_congr_right fun _ => ?_
  rcases hdirs : (Disk.makeDirs (s.assetsPath id) troubles).run w.disk with ⟨e | u, d₁⟩
  · rw [escapes_error (run_bind_error (WorkM.run_onDisk_error hdirs))]
    exact ⟨fun _ => .inl ⟨e, d₁, hdirs⟩, fun _ => rfl⟩
  · have hmade : ¬ Disk.Fails (Disk.makeDirs (s.assetsPath id) troubles) w.disk := by
      rintro ⟨e, d', hfails⟩
      cases hdirs.symm.trans hfails
    obtain ⟨l, es, hfound⟩ := Disk.finds_of_makeDirs hdirs
    have hnul := hasNul_child_name (s.assetsPath id) hfilename
    rw [hfound.noNul, Bool.false_or] at hnul
    rw [escapes_bind (WorkM.run_onDisk_ok hdirs), pure_bind, or_iff_right hmade, ← hnul]
    cases hn : ((s.assetsPath id).child filename).hasNul with
    | true =>
      rw [escapes_error (run_bind_error (WorkM.run_onDisk_error (Disk.run_write_nul hn _ _)))]
      exact ⟨fun _ => rfl, fun _ => rfl⟩
    | false =>
      refine iff_of_false ?_ Bool.false_ne_true
      rcases hwrite : (Disk.write ((s.assetsPath id).child filename) (.bytes bytes) 0o644 troubles).run d₁ with
        ⟨e | u, d₂⟩
      · rw [escapes_error (run_bind_error (WorkM.run_onDisk_error hwrite)), Failure.isStoreFault_wrapping,
          Disk.onlyRefuses_write hn _ _ _ _ _ hwrite]
        exact Bool.false_ne_true.symm
      · rw [escapes_bind (WorkM.run_onDisk_ok hwrite)]
        exact not_escapes (run_bind_ok (WorkM.run_log _ _ _ _))

/-- When each operation escapes, whatever the system refuses. Whatever else goes wrong is a fault of the store. -/
structure EscapesWhere (s : Store) (room : Room) (troubles : Disk.Troubles) (w : Workspace) : Prop where
  load : ∀ id, Escapes (s.loadRecipe id room troubles) w ↔ isName id = true ∧
    (Disk.Fails (Disk.isFile (s.recipePath id) troubles) w.disk ∨
      ∃ c, (Disk.read (s.recipePath id) troubles).run w.disk = (.ok c, w.disk) ∧
        (unreadable? c.toBytes room).isSome = true)
  list : ∀ id, Escapes (s.listAssets id troubles) w ↔
    isName id = true ∧ Unlisted (s.assetsPath id) troubles w.disk
  save : ∀ r, Escapes (s.saveRecipe r troubles) w ↔ refusal? r = none ∧
    (Disk.Fails (Disk.makeDirs (s.assetsPath r.project.id) troubles) w.disk ∨
      ∃ e, ({ r with updatedAt := w.now } : Recipe).canonical = .error e)
  upload : ∀ id filename bytes, Escapes (s.saveAsset id filename bytes troubles) w ↔ isName filename = true ∧
    isName id = true ∧ (Disk.Fails (Disk.makeDirs (s.assetsPath id) troubles) w.disk ∨
      filename.toList.contains '\x00' = true)

theorem escapesWhere (s : Store) (room : Room) (troubles : Disk.Troubles) (hsane : w.disk.Sane) :
    s.EscapesWhere room troubles w :=
  ⟨fun _ => escapes_loadRecipe_iff, fun _ => escapes_listAssets_iff, fun _ => escapes_saveRecipe_iff hsane,
    fun _ _ _ => escapes_saveAsset_iff⟩

end Store

end Provision
