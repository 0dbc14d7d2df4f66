import Provision.Proofs.Bundle.Reproducible

/-!
# How an export ends

An export ends in one of the ways of `Ends`, each told by what was found out on the way to it, in the order
in which it is found out: findings, target, compilation, bundle. Up to the compilation nothing is changed but
the log, so an export that is turned away leaves the disk as it was (`export_gate`), but for lines of the log
where that goes to a file.
-/

namespace Provision

/-- Nothing is changed, but lines may have been added to the held file. -/
def Disk.Lengthened (d d' : Disk) : Prop :=
  ∃ lines : List ByteArray, d' = lines.foldl Disk.append d

namespace Disk.Lengthened

variable {d d' d'' : Disk}

theorem refl (d : Disk) : Lengthened d d := ⟨[], rfl⟩

theorem trans (h : Lengthened d d') (h' : Lengthened d' d'') : Lengthened d d'' := by
  obtain ⟨lines, rfl⟩ := h
  obtain ⟨lines', rfl⟩ := h'
  exact ⟨lines ++ lines', List.foldl_append.symm⟩

theorem eq_of_held (h : Lengthened d d') (hd : d.held = none) : d' = d := by
  obtain ⟨lines, rfl⟩ := h
  have hline : ∀ line, d.append line = d := fun line => by rw [Disk.append, hd]
  induction lines with
  | nil => rfl
  | cons line lines ih => rw [List.foldl_cons, hline, ih]

theorem rel {R : Disk → Disk → Prop} (h : Lengthened d d') (hrefl : ∀ d, R d d)
    (htrans : ∀ {d d' d''}, R d d' → R d' d'' → R d d'') (happend : ∀ d line, R d (d.append line)) : R d d' := by
  obtain ⟨lines, rfl⟩ := h
  induction lines generalizing d with
  | nil => exact hrefl d
  | cons line lines ih => exact htrans (happend d line) ih

theorem grown (h : Lengthened d d') : Grown d d' :=
  h.rel .refl .trans grown_append

end Disk.Lengthened

namespace Workspace

variable {w w' w'' : Workspace}

/-- Only the log has grown. -/
structure Logged (w w' : Workspace) : Prop where
  now : w'.now = w.now
  tempDir : w'.tempDir = w.tempDir
  disk : Disk.Lengthened w.disk w'.disk

theorem Logged.refl (w : Workspace) : Logged w w := ⟨rfl, rfl, .refl _⟩

theorem Logged.trans (h : Logged w w') (h' : Logged w' w'') : Logged w w'' :=
  ⟨h'.now.trans h.now, h'.tempDir.trans h.tempDir, h.disk.trans h'.disk⟩

theorem logged_writeLine (w : Workspace) (x : Log.Sink × String) : Logged w (w.writeLine x) := by
  obtain ⟨_ | path, line⟩ := x
  · exact ⟨rfl, rfl, .refl _⟩
  · exact ⟨rfl, rfl, [line.toUTF8], rfl⟩

theorem logged_emit (w : Workspace) (rec : Log.Record) : Logged w (w.emit rec) :=
  rel_emit Logged.refl Logged.trans logged_writeLine w rec

theorem logged_emitAll (w : Workspace) (recs : List Log.Record) :
    Logged w (recs.foldl (fun w rec => w.emit rec) w) :=
  rel_emitAll Logged.refl Logged.trans logged_writeLine w recs

end Workspace

open Workspace (Logged)

namespace Bundle

variable {s : Store} {q : Request} {r : Recipe} {format : Format} {w w' w₁ w₂ : Workspace}
  {issues : List Issue} {room : Room} {troubles : Disk.Troubles}

/-- What is known once the findings hold no error. -/
structure Passes (r : Recipe) (room : Room) (issues : List Issue) (w w₁ : Workspace) : Prop where
  check : Check.recipe r room = .ok issues
  errors : hasErrors issues = false
  logged : Logged w w₁

/-- What is known once the target may be replaced, as it stood then. -/
structure Admits (q : Request) (r : Recipe) (room : Room) (troubles : Disk.Troubles) (issues : List Issue)
    (w w₁ : Workspace) : Prop extends Passes r room issues w w₁ where
  target : ∃ w₀, Passes r room issues w w₀ ∧ Logged w₀ w₁ ∧
    (isReplaceable (targetOf q r w.tempDir) troubles).run w₀.disk = (.ok true, w₀.disk)

/-- The outcomes of an export of a recipe, with the workspace that each leaves. -/
inductive Ends (s : Store) (q : Request) (r : Recipe) (format : Format) (room : Room) (troubles : Disk.Troubles)
    (w : Workspace) : Except Failure Outcome → Workspace → Prop
  | unreadable {f : TextFault} (hcheck : Check.recipe r room = .error f) :
    Ends s q r format room troubles w (.error (.compile (.unreadable f))) w
  | refused {is : List Issue} {w' : Workspace} (hcheck : Check.recipe r room = .ok is)
    (herrors : hasErrors is = true) (hlogged : Logged w w') : Ends s q r format room troubles w (.ok (.refused is)) w'
  | unseen {is : List Issue} {f : DiskFault} {w' : Workspace} (hpass : Passes r room is w w')
    (htarget : (isReplaceable (targetOf q r w.tempDir) troubles).run w'.disk = (.error f, w'.disk)) :
    Ends s q r format room troubles w (.error (.disk f)) w'
  | occupied {is : List Issue} {w' : Workspace} (rec : Log.Record) (hpass : Passes r room is w w')
    (htarget : (isReplaceable (targetOf q r w.tempDir) troubles).run w'.disk = (.ok false, w'.disk)) :
    Ends s q r format room troubles w (.ok (.failed notABundle is)) (w'.emit rec)
  | unreported {is : List Issue} {f : CompileFault} {w' : Workspace} (hfree : Admits q r room troubles is w w')
    (hcompile : Artifacts.ofRecipe r (.ofTimestamp w.now) room = .error f) (hreport : f.report? = none) :
    Ends s q r format room troubles w (.error (.compile f)) w'
  | uncompiled {is : List Issue} {f : CompileFault} {report : String} {w' : Workspace} (rec : Log.Record)
    (hfree : Admits q r room troubles is w w') (hcompile : Artifacts.ofRecipe r (.ofTimestamp w.now) room = .error f)
    (hreport : f.report? = some report) : Ends s q r format room troubles w (.ok (.failed report is)) (w'.emit rec)
  | written {is : List Issue} {a : Artifacts} {path : Path} {w₁ w₂ : Workspace} (rec : Log.Record)
    (hfree : Admits q r room troubles is w w₁) (hcompile : Artifacts.ofRecipe r (.ofTimestamp w.now) room = .ok a)
    (hinstall : (install s r a (targetOf q r w.tempDir) format troubles).run w₁ = (.ok path, w₂)) :
    Ends s q r format room troubles w (.ok (.written path is)) (w₂.emit rec)
  | broken {is : List Issue} {a : Artifacts} {f : Failure} {w₁ w₂ : Workspace}
    (hfree : Admits q r room troubles is w w₁)
    (hinstall : (install s r a (targetOf q r w.tempDir) format troubles).run w₁ = (.error f, w₂))
    (hreport : f.refusal? = none) : Ends s q r format room troubles w (.error f) w₂
  | notWritten {is : List Issue} {a : Artifacts} {f : Failure} {report : String} {w₁ w₂ : Workspace}
    (rec : Log.Record) (hfree : Admits q r room troubles is w w₁)
    (hinstall : (install s r a (targetOf q r w.tempDir) format troubles).run w₁ = (.error f, w₂))
    (hreport : f.refusal? = some report) : Ends s q r format room troubles w (.ok (.failed report is)) (w₂.emit rec)

theorem run_attempt_eq {α : Type} (x : StoreM α) (w : Workspace) :
    (attempt x).run w = (.ok (x.run w).1, (x.run w).2) := by
  rcases hx : x.run w with ⟨e | b, w₁⟩
  · rw [attempt, run_tryCatch_error (run_map_error Except.ok hx)]
    rfl
  · rw [attempt, run_tryCatch_ok (run_map_ok Except.ok hx)]

theorem run_compile_eq (r : Recipe) (room : Room) (w : Workspace) :
    ∃ w', Logged w w' ∧ (Compile.compile r none room).run w =
      ((Artifacts.ofRecipe r (.ofTimestamp w.now) room).mapError .compile, w') := by
  have hlogged := Workspace.logged_emitAll w (Compile.records r room)
  refine ⟨_, hlogged, ?_⟩
  have hrecords : (Compile.emitAll (Compile.records r room)).run w =
      (.ok (), (Compile.records r room).foldl (fun w rec => w.emit rec) w) := rfl
  rw [Compile.compile, run_bind_ok hrecords, run_bind_ok (WorkM.run_now _), Option.getD_none, hlogged.now]
  cases Artifacts.ofRecipe r (.ofTimestamp w.now) room <;> rfl

theorem writeTo_ends (hpass : Passes r room issues w w₁)
    (htarget : (isReplaceable (targetOf q r w.tempDir) troubles).run w₁.disk = (.ok true, w₁.disk)) :
    Ends s q r format room troubles w ((writeTo s r issues (targetOf q r w.tempDir) format room troubles).run w₁).1
      ((writeTo s r issues (targetOf q r w.tempDir) format room troubles).run w₁).2 := by
  obtain ⟨w₂, hlogged, hcompile⟩ := run_compile_eq r room w₁
  rw [hpass.logged.now] at hcompile
  have hfree : Admits q r room troubles issues w w₂ :=
    ⟨⟨hpass.check, hpass.errors, hpass.logged.trans hlogged⟩, w₁, hpass, hlogged, htarget⟩
  rw [writeTo, run_bind_ok (run_attempt_eq _ w₁), hcompile]
  cases ha : Artifacts.ofRecipe r (.ofTimestamp w.now) room with
  | error f =>
    cases hreport : f.report? with
    | none =>
      simp only [Except.mapError, hreport]
      exact .unreported hfree ha hreport
    | some report =>
      simp only [Except.mapError, hreport]
      exact .uncompiled _ hfree ha hreport
  | ok a =>
    simp only [Except.mapError]
    rw [run_bind_ok (run_attempt_eq _ w₂)]
    rcases hinstall : (install s r a (targetOf q r w.tempDir) format troubles).run w₂ with ⟨f | path, w₃⟩
    · cases hreport : f.refusal? with
      | none =>
        simp only [hreport]
        exact .broken hfree hinstall hreport
      | some report =>
        simp only [hreport]
        exact .notWritten _ hfree hinstall hreport
    · exact .written _ hfree ha hinstall

theorem exportRecipe_ends (s : Store) (q : Request) (r : Recipe) (format : Format) (room : Room)
    (troubles : Disk.Troubles) (w : Workspace) :
    Ends s q r format room troubles w ((exportRecipe s q r format room troubles).run w).1
      ((exportRecipe s q r format room troubles).run w).2 := by
  have hlogged : ∀ issues, Logged w (w.emit (Compile.checkedRecord r issues)) := fun _ =>
    Workspace.logged_emit w _
  rw [exportRecipe]
  cases hcheck : Check.recipe r room with
  | error f =>
    have hrun : (Compile.check r room).run w = (.error (.compile (.unreadable f)), w) := by
      rw [Compile.check, hcheck]
      rfl
    rw [run_bind_error hrun]
    exact .unreadable hcheck
  | ok issues =>
    have hrun : (Compile.check r room).run w = (.ok issues, w.emit (Compile.checkedRecord r issues)) := by
      rw [Compile.check, hcheck]
      rfl
    rw [run_bind_ok hrun]
    by_cases herrors : hasErrors issues = true
    · rw [if_pos herrors]
      exact .refused hcheck herrors ((hlogged issues).trans (Workspace.logged_emitAll _ [_]))
    · rw [if_neg herrors, run_bind_ok (run_get _), (hlogged issues).tempDir]
      have hpass : Passes r room issues w (w.emit (Compile.checkedRecord r issues)) :=
        ⟨hcheck, by simpa using herrors, hlogged issues⟩
      generalize w.emit (Compile.checkedRecord r issues) = w₁ at hpass
      rcases htarget : (isReplaceable (targetOf q r w.tempDir) troubles).run w₁.disk with ⟨f | b, d⟩
      · obtain rfl := (readOnly_isReplaceable _).run_eq htarget
        rw [run_bind_error (WorkM.run_onDisk_error htarget)]
        exact .unseen hpass htarget
      · obtain rfl := (readOnly_isReplaceable _).run_eq htarget
        rw [run_bind_ok (WorkM.run_onDisk_ok htarget)]
        cases b with
        | false => exact .occupied _ hpass htarget
        | true => exact writeTo_ends hpass htarget

/-! ### Reports -/

/-- What can go wrong while a bundle is written. -/
def IsWriteFailure (f : Failure) : Prop :=
  (∃ cause, f = .disk cause) ∨ ∃ path cause, f = .store (.bundleNotWritten path cause)

theorem fails_disk {α : Type} (x : DiskM α) : FailsWith IsWriteFailure (WorkM.onDisk .disk x) :=
  WorkM.fails_onDisk fun cause => .inl ⟨cause, rfl⟩

theorem fails_wrapping {α : Type} (x : DiskM α) (target : Path) :
    FailsWith IsWriteFailure (WorkM.onDisk (Failure.wrapping (.bundleNotWritten target)) x) := by
  refine WorkM.fails_onDisk fun cause => ?_
  rw [Failure.wrapping]
  split
  · exact .inr ⟨target, cause, rfl⟩
  · exact .inl ⟨cause, rfl⟩

theorem fails_install (s : Store) (r : Recipe) (a : Artifacts) (target : Path) (format : Format)
    (troubles : Disk.Troubles) :
    FailsWith IsWriteFailure (install s r a target format troubles) := by
  refine .bind (fails_disk _) fun _ => .bind ?_ fun _ => .bind (fails_disk _) fun _ => ?_
  · refine .bind (fails_wrapping _ _) fun _ => .bind (.pure _) fun _ => ?_
    refine .bind (fails_wrapping _ _) fun _ => .bind (fails_wrapping _ _) fun _ => ?_
    intro w f w' h
    cases h
  · cases format with
    | dir => exact .pure _
    | tarGz => exact fails_disk _

/-- The reports of exports that fail before anything is written. -/
def IsEarly (report : String) : Prop :=
  (∃ format, report = unsupported format) ∨ report = notABundle ∨
    ∃ f : CompileFault, f.report? = some report

/-- How the reports of those begin, and how the reports of bundles that could not be written do. -/
def earlyOpenings : List String :=
  ["unsupported format ", notABundle, "Cannot compile recipe '", "Cannot serialize recipe '"]

def lateOpenings : List String :=
  ["[Errno ", "PosixPath(", "Cannot write bundle to "]

theorem prefix_of_append {a b report : String} (h : report = a ++ b) : a.toList <+: report.toList := by
  rw [h, String.toList_append]
  exact List.prefix_append _ _

theorem opening_of_isEarly {report : String} (h : IsEarly report) :
    ∃ a ∈ earlyOpenings, a.toList <+: report.toList := by
  rcases h with ⟨format, h⟩ | h | ⟨cause, h⟩
  · unfold unsupported at h
    rw [String.append_assoc, String.append_assoc, String.append_assoc] at h
    exact ⟨_, .head _, prefix_of_append h⟩
  · exact ⟨notABundle, .tail _ (.head _), h ▸ List.prefix_refl _⟩
  · cases cause with
    | unreadable fault => cases h
    | settings project record ds =>
      have hreport := (Option.some.inj h).symm
      rw [String.append_assoc, String.append_assoc] at hreport
      exact ⟨_, .tail _ (.tail _ (.head _)), prefix_of_append hreport⟩
    | unwritable project fault =>
      have hreport := (Option.some.inj h).symm
      rw [String.append_assoc, String.append_assoc] at hreport
      exact ⟨_, .tail _ (.tail _ (.tail _ (.head _))), prefix_of_append hreport⟩

theorem opening_of_refusal {f : Failure} {report : String} (hf : IsWriteFailure f)
    (h : f.refusal? = some report) : ∃ b ∈ lateOpenings, b.toList <+: report.toList := by
  rcases hf with ⟨cause, rfl⟩ | ⟨path, cause, rfl⟩
  · cases cause with
    | refused errno path target =>
      have hreport : report = "[Errno " ++ Decimal.intText errno.number ++ "] " ++ errno.message ++ _ ++ _ :=
        (Option.some.inj h).symm
      simp only [String.append_assoc] at hreport
      exact ⟨_, .head _, prefix_of_append hreport⟩
    | sameFile source target =>
      have hreport : report = "PosixPath(" ++ quoted source ++ ") and PosixPath(" ++ quoted target ++
          ") are the same file" := (Option.some.inj h).symm
      simp only [String.append_assoc] at hreport
      exact ⟨_, .tail _ (.head _), prefix_of_append hreport⟩
    | nulByte | emptyName path => cases h
  · have hmessage : (StoreFault.bundleNotWritten path cause).message =
        "Cannot write bundle to " ++ path.text ++ ": " ++ cause.message := rfl
    have hreport : report = (StoreFault.bundleNotWritten path cause).message := (Option.some.inj h).symm
    rw [hmessage, String.append_assoc, String.append_assoc] at hreport
    exact ⟨_, .tail _ (.tail _ (.head _)), prefix_of_append hreport⟩

theorem not_isEarly_of_refusal {f : Failure} {report : String} (hf : IsWriteFailure f)
    (hreport : f.refusal? = some report) : ¬ IsEarly report := by
  intro h
  obtain ⟨a, ha, hearly⟩ := opening_of_isEarly h
  obtain ⟨b, hb, hlate⟩ := opening_of_refusal hf hreport
  have hapart : ∀ a ∈ earlyOpenings, ∀ b ∈ lateOpenings,
      ¬ a.toList <+: b.toList ∧ ¬ b.toList <+: a.toList := by decide
  rcases List.prefix_or_prefix_of_prefix hearly hlate with hab | hba
  · exact (hapart a ha b hb).1 hab
  · exact (hapart a ha b hb).2 hba

variable {res : Except Failure Outcome}

theorem Ends.refused_of_errors (h : Ends s q r format room troubles w res w')
    (hcheck : Check.recipe r room = .ok issues) (herrors : hasErrors issues = true) : res = .ok (.refused issues) := by
  cases h with
  | unreadable hcheck' => cases hcheck.symm.trans hcheck'
  | refused hcheck' => rw [Except.ok.inj (hcheck.symm.trans hcheck')]
  | unseen hpass | occupied _ hpass =>
    obtain rfl := Except.ok.inj (hcheck.symm.trans hpass.check)
    cases herrors.symm.trans hpass.errors
  | unreported hfree | uncompiled _ hfree | written _ hfree | broken hfree | notWritten _ hfree =>
    obtain rfl := Except.ok.inj (hcheck.symm.trans hfree.check)
    cases herrors.symm.trans hfree.errors

theorem Ends.check_of_written {path : Path} (h : Ends s q r format room troubles w (.ok (.written path issues)) w') :
    Check.recipe r room = .ok issues ∧ hasErrors issues = false := by
  cases h with
  | written _ hfree => exact ⟨hfree.check, hfree.errors⟩

theorem Ends.lengthened_of_refused (h : Ends s q r format room troubles w (.ok (.refused issues)) w') :
    w.disk.Lengthened w'.disk := by
  cases h with
  | refused _ _ hlogged => exact hlogged.disk

theorem Ends.lengthened_of_early {report : String}
    (h : Ends s q r format room troubles w (.ok (.failed report issues)) w') (hearly : IsEarly report) : w.disk.Lengthened w'.disk := by
  cases h with
  | occupied rec hpass => exact (hpass.logged.trans (Workspace.logged_emit _ rec)).disk
  | uncompiled rec hfree => exact (hfree.logged.trans (Workspace.logged_emit _ rec)).disk
  | notWritten _ hfree hinstall hreport =>
    have hfailure := fails_install _ _ _ _ _ _ _ _ _ hinstall
    exact absurd hearly (not_isEarly_of_refusal hfailure hreport)

/-- An export of a project whose recipe has errors is refused with its findings, whatever there is at the
target, and one that is written had none. An export that is refused, or fails before anything is written,
or fails as the recipe is loaded, changes nothing on the disk but the file of the log. -/
theorem export_gate (h : (exportProject s q).run w = (res, w')) :
    (∀ format r issues, Format.ofName? q.format = some format →
      ((s.loadRecipe q.project).run w).1 = .ok r → Check.recipe r = .ok issues → hasErrors issues = true →
      res = .ok (.refused issues)) ∧
    (∀ path issues, res = .ok (.written path issues) →
      ∃ r, ((s.loadRecipe q.project).run w).1 = .ok r ∧ Check.recipe r = .ok issues ∧
        hasErrors issues = false) ∧
    (∀ issues, res = .ok (.refused issues) → w.disk.Lengthened w'.disk) ∧
    (∀ report issues, res = .ok (.failed report issues) → IsEarly report → w.disk.Lengthened w'.disk) ∧
    (∀ format f, Format.ofName? q.format = some format → ((s.loadRecipe q.project).run w).1 = .error f →
      res = .error f ∧ w' = w) := by
  cases exportProject_concludes h with
  | unsupported hformat =>
    have hnone : ∀ format, Format.ofName? q.format ≠ some format := fun _ hf => by cases hformat.symm.trans hf
    exact ⟨fun format _ _ hf => absurd hf (hnone format), nofun, nofun, fun _ _ _ _ => .refl _,
      fun format _ hf => absurd hf (hnone format)⟩
  | notLoaded hload =>
    rw [hload]
    refine ⟨fun _ _ _ _ he => (by cases he), nofun, nofun, nofun, fun format f hf he => ?_⟩
    cases he
    exact ⟨rfl, rfl⟩
  | @loaded r format _ _ hformat hload hexport =>
    have hends := exportRecipe_ends s q r format .standard .none w
    rw [hexport] at hends
    rw [hload]
    refine ⟨fun _ _ issues _ hr hcheck herrors => ?_, fun path issues hres => ?_, fun issues hres => ?_,
      fun report issues hres hearly => ?_, fun _ _ _ he => by cases he⟩
    · cases hr
      exact hends.refused_of_errors hcheck herrors
    · subst hres
      exact ⟨r, rfl, hends.check_of_written⟩
    · subst hres
      exact hends.lengthened_of_refused
    · subst hres
      exact hends.lengthened_of_early hearly

/-- A recipe with a step that lacks its setting. -/
def faultyRecipe : Recipe :=
  { Recipe.starter "p" "demo" .epoch with steps := [{ id := "s", name := "make", type := "mkdir" }] }

theorem isStorable_faulty : faultyRecipe.IsStorable :=
  ⟨by decide, ⟨by simp [faultyRecipe, Recipe.starter, IsKeyed],
    by simp [faultyRecipe, IsKeyed, Json.WellKeyed, Json.WellKeyedMembers]⟩, by decide, by decide⟩

theorem ordered_faulty : faultyRecipe.ordered = faultyRecipe := by
  simp [Recipe.ordered, Recipe.mapSettings, faultyRecipe, sortByKey]

theorem check_faulty : Check.recipe faultyRecipe = .ok [⟨.error, "s", "path is required"⟩] := rfl

theorem loadRecipe_faulty {text : String} (htext : faultyRecipe.canonical = .ok text)
    (hstore : w.disk.Finds ⟨.root, ["store"]⟩ (.found ["store"] (sampleStore text))) :
    (Store.loadRecipe ⟨⟨.root, ["store"]⟩⟩ "p").run w = (.ok faultyRecipe, w) := by
  refine Store.run_loadRecipe (by decide) (finds_sample hstore).1 ?_
  have hparse := Store.parse_canonical isStorable_faulty.exact isStorable_faulty.keyed htext
    Store.blanks_nil (Store.recipePath ⟨⟨.root, ["store"]⟩⟩ "p") w.now
  rwa [String.append_empty, ordered_faulty] at hparse

theorem export_gate_faulty :
    ∃ text w', faultyRecipe.canonical = .ok text ∧
      (exportProject ⟨⟨.root, ["store"]⟩⟩ { project := "p", target := some ⟨.root, ["bundle"]⟩ }).run
        (sampleWorkspace text) = (.ok (.refused [⟨.error, "s", "path is required"⟩]), w') ∧
      (sampleWorkspace text).disk.Lengthened w'.disk := by
  obtain ⟨text, htext⟩ := isStorable_faulty.canonical
  have hstore : (sampleWorkspace text).disk.Finds ⟨.root, ["store"]⟩
      (.found ["store"] (sampleStore text)) :=
    ⟨by decide, by decide, by rfl⟩
  have hload := loadRecipe_faulty htext hstore
  generalize hrun : (exportProject ⟨⟨.root, ["store"]⟩⟩
    { project := "p", target := some ⟨.root, ["bundle"]⟩ }).run (sampleWorkspace text) = out
  obtain ⟨res, w'⟩ := out
  obtain ⟨hgate, -, hspared, -⟩ := export_gate hrun
  have hres := hgate .dir faultyRecipe _ rfl (by rw [hload]) check_faulty rfl
  subst hres
  exact ⟨text, w', htext, hrun, hspared _ rfl⟩

theorem run_exportProject_refused (hlog : w.log.IsQuiet) (hformat : Format.ofName? q.format = some format)
    (hload : (s.loadRecipe q.project).run w = (.ok r, w)) (hcheck : Check.recipe r = .ok issues)
    (herrors : hasErrors issues = true) :
    (exportProject s q).run w = (.ok (.refused issues), w.emit (refusedRecord r issues)) := by
  have hemit : (Compile.emitAll [refusedRecord r issues]).run w =
      (.ok (), w.emit (refusedRecord r issues)) := rfl
  rw [run_exportProject_loaded hformat hload, exportRecipe, run_bind_ok (run_check hlog hcheck), if_pos herrors,
    run_bind_ok hemit]
  rfl

/-- What is logged of the refusal is added to the log, so the disk is not as it was. -/
theorem refused_export_logs :
    ∃ text w', faultyRecipe.canonical = .ok text ∧
      (exportProject ⟨⟨.root, ["store"]⟩⟩ { project := "p", target := some ⟨.root, ["elsewhere"]⟩ }).run
        (loggedWorkspace text .empty) = (.ok (.refused [⟨.error, "s", "path is required"⟩]), w') ∧
      w'.disk ≠ (loggedWorkspace text .empty).disk := by
  obtain ⟨text, htext⟩ := isStorable_faulty.canonical
  have hstore : (loggedWorkspace text .empty).disk.Finds ⟨.root, ["store"]⟩
      (.found ["store"] (sampleStore text)) :=
    ⟨by decide, by decide, by rfl⟩
  have hload := loadRecipe_faulty htext hstore
  have hrun := run_exportProject_refused
    (q := { project := "p", target := some ⟨.root, ["elsewhere"]⟩ }) isQuiet_strayLog rfl hload check_faulty rfl
  refine ⟨text, _, htext, hrun, fun heq => ?_⟩
  obtain ⟨line, hline⟩ := emit_strayLog (w := loggedWorkspace text .empty) rfl logName
    (refusedRecord faultyRecipe [⟨.error, "s", "path is required"⟩]).message
  have hfile : ∃ mode, (loggedWorkspace text .empty).disk.Finds ⟨.root, ["bundle", "recipe.json"]⟩
      (.found ["bundle", "recipe.json"] (.file mode (.bytes .empty))) :=
    ⟨0o644, by decide, by decide, by rfl⟩
  have happend := Workspace.hasFile_append rfl hfile (line ++ "\n").toUTF8
  have hdisk : (loggedWorkspace text .empty).disk.append (line ++ "\n").toUTF8 =
      (loggedWorkspace text .empty).disk :=
    (congrArg Workspace.disk hline).symm.trans heq
  rw [hdisk] at happend
  obtain ⟨mode, hsame⟩ := happend
  obtain ⟨mode', hfile⟩ := hfile
  have hspot := hfile.unique hsame
  simp only [Disk.Spot.found.injEq, Node.file.injEq, Content.bytes.injEq] at hspot
  exact append_line_ne "" line hspot.2.2.symm

end Bundle

end Provision
