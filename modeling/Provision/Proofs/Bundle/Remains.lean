import Provision.Proofs.Bundle.Content
import Provision.Proofs.Bundle.Reach
import Provision.Proofs.Disk.Thinning

/-!
# What a failed export leaves

What is at the target is cleared before a bundle is written, and is not brought back. An export that fails
while it writes leaves as much of the new bundle as it has written, and nothing of an earlier one
(`failed_export_clears`). Only where the system stops the removal of the earlier one, some of that is left, and
nothing of the new one (`failed_export_remains`).
-/

namespace Provision

open Disk (Begins Below Footprint IsStopped PutsFile Remnant Spares)
open Workspace (Logged)

namespace Bundle

variable {s : Store} {q : Request} {r : Recipe} {a : Artifacts} {target p : Path} {format : Format} {d d' d₀ : Disk}
  {w w' w₁ : Workspace} {place more t : List String} {touched : List String → Prop} {c : Content} {room : Room}
  {troubles : Disk.Troubles}

/-- What may be below the target of an export that has begun to write, by where it is and what it has in it, if it
is a file. `d` is the disk at the beginning. -/
inductive Made (s : Store) (r : Recipe) (a : Artifacts) (target : Path) (troubles : Disk.Troubles) (d : Disk) :
    List String → Option Content → Prop
  /-- The path to the target leads through the directory. -/
  | way {t : List String} (h : OnWay d target (d.placeOf target ++ t)) : Made s r a target troubles d t none
  | assets : Made s r a target troubles d [Save.assetsDir] none
  | recipe : Made s r a target troubles d [Save.recipeFile] (some (.bytes a.recipeJson.toUTF8))
  | script : Made s r a target troubles d [scriptFile] (some (.bytes a.installSh.toUTF8))
  | notes : Made s r a target troubles d [notesFile] (some (.bytes a.readme.toUTF8))
  /-- A file of the project, as it was or, if the log goes to it, with lines of the log at its end. -/
  | copy {more place : List String} {x : String} {mode : Nat} {c : Content}
    (hplace : d.placeOf ((s.assetsPath r.project.id).child x) = place)
    (h : Node.Stands False (d.held = some place) (d.root.get? place) (some (.file mode c))) :
    Made s r a target troubles d (Save.assetsDir :: more) (some c)
  /-- Where the files of the project are looked for in the bundle itself, its own are copied. -/
  | part {t more : List String} {c : Content} (h : Made s r a target troubles d t (some c)) :
    Made s r a target troubles d (Save.assetsDir :: more) (some c)
  /-- A file that the system has broken off holds a beginning. -/
  | begun {t : List String} {c c' : Content} (h : Made s r a target troubles d t (some c))
    (hc : Begins troubles c' c) : Made s r a target troubles d t (some c')

/-- At and below the target there is nothing but what is made. -/
structure Filled (s : Store) (r : Recipe) (a : Artifacts) (target : Path) (troubles : Disk.Troubles) (d₀ d : Disk) :
    Prop where
  reach : Footprint (Touches d₀ target .dir) (OnWay d₀ target) d₀ d
  held : ∀ l, d.held = some l → ¬ d₀.placeOf target <+: l
  made : ∀ t n, d.root.get? (d₀.placeOf target ++ t) = some n → Made s r a target troubles d₀ t n.content?

theorem Filled.of_footprint (h : Filled s r a target troubles d₀ d) (hreach : Reaches d₀ target .dir d d')
    (hf : Footprint touched (fun _ => False) d d')
    (hmade : ∀ t n, touched (d₀.placeOf target ++ t) → d'.root.get? (d₀.placeOf target ++ t) = some n →
      Made s r a target troubles d₀ t n.content?) : Filled s r a target troubles d₀ d' := by
  refine ⟨h.reach.trans (hreach h.reach.cwd), fun l hl => h.held l (hf.held l hl), fun t n hn => ?_⟩
  by_cases ht : touched (d₀.placeOf target ++ t)
  · exact hmade t n ht hn
  · have hstands := hf.stands _ ht
    rw [hn] at hstands
    obtain ⟨n₀, hn₀, hsame⟩ := hstands.content id fun hheld => h.held _ hheld (List.prefix_append _ t)
    exact hsame ▸ h.made t n₀ hn₀

theorem made_of_mem_texts {x text : String} (h : (x, text) ∈ texts a) :
    Made s r a target troubles d [x] (some (.bytes text.toUTF8)) := by
  simp only [texts, List.mem_cons, List.not_mem_nil, or_false, Prod.mk.injEq] at h
  obtain ⟨rfl, rfl⟩ | ⟨rfl, rfl⟩ | ⟨rfl, rfl⟩ := h
  exacts [.recipe, .script, .notes]

/-- A step after which there is nothing but what is made, if there was nothing else before. -/
def Fills (s : Store) (r : Recipe) (a : Artifacts) (target : Path) (troubles : Disk.Troubles) (d₀ d d' : Disk) :
    Prop :=
  Filled s r a target troubles d₀ d → Filled s r a target troubles d₀ d'

namespace Fills

theorem refl (s : Store) (r : Recipe) (a : Artifacts) (target : Path) (troubles : Disk.Troubles) (d₀ d : Disk) :
    Fills s r a target troubles d₀ d d :=
  id

theorem trans {d'' : Disk} (h : Fills s r a target troubles d₀ d d') (h' : Fills s r a target troubles d₀ d' d'') :
    Fills s r a target troubles d₀ d d'' :=
  h' ∘ h

end Fills

theorem filled_of_puts (h : Filled s r a target troubles d₀ d) (hreach : Reaches d₀ target .dir d d')
    (hput : d' = d ∨ ∃ q place mode c, PutsFile q place mode c d d' ∧
      ∀ t, place = d₀.placeOf target ++ t → Made s r a target troubles d₀ t (some c)) :
    Filled s r a target troubles d₀ d' := by
  rcases hput with rfl | ⟨q, place, mode, c, hputs, hc⟩
  · exact h
  · have hf : Footprint (· = place) (fun _ => False) d d' := by
      rw [hputs.eq]
      exact .of_fileSpot hputs.spot rfl
    refine h.of_footprint hreach hf fun t n ht hn => ?_
    rw [ht, hputs.eq, hputs.spot.get_setAt] at hn
    obtain rfl := Option.some.inj hn
    exact hc t ht.symm

theorem filled_write (hb : Below target more p) (hc : Made s r a target troubles d₀ more (some c)) (mode : Nat) :
    Preserves (Fills s r a target troubles d₀) (Disk.write p c mode troubles) := by
  refine fun d h => filled_of_puts h (reaches_write hb c mode d) ((Disk.write_cases p c mode d).imp_right ?_)
  rintro ⟨place, mode', c', hbegins, hput⟩
  refine ⟨p, place, mode', c', hput, fun t ht => ?_⟩
  rw [hput.spot.eq_placeOf, Disk.placeOf_of_cwd h.reach.cwd, Disk.placeOf_below hb] at ht
  exact List.append_cancel_left ht ▸ .begun hc hbegins

theorem filled_chmod (hb : Below target more p) (mode : Nat) :
    Preserves (Fills s r a target troubles d₀) (Disk.chmod p mode troubles) := by
  refine fun d h => filled_of_puts h (reaches_chmod hb mode d) ((Disk.chmod_cases p mode d).imp_right ?_)
  rintro ⟨place, mode₀, c, hf, hd'⟩
  refine ⟨p, place, mode, c, ⟨.inr ⟨mode₀, c, hf⟩, hd'⟩, fun t ht => ?_⟩
  exact h.made t _ (ht ▸ Disk.get_of_walk hf.leads)

theorem filled_mkdir (hanchor : p.anchor = target.anchor) (hp : p.names <+: target.names ++ [Save.assetsDir]) :
    Preserves (Fills s r a target troubles d₀) (Disk.mkdir p troubles) := by
  intro d h
  have hreach : Reaches d₀ target .dir d ((Disk.mkdir p troubles).run d).2 := reaches_mkdir hanchor hp d
  rcases Disk.mkdir_cases p d with hd | ⟨place, hs, hd⟩
  · rwa [hd]
  · rw [hd] at hreach ⊢
    have hplace : place = Disk.follow (d₀.start target) p.names := place_of_anchor h.reach.cwd hanchor hs
    have hmade : Footprint (· = place) (fun _ => False) d (d.setAt place (some (.dir []))) :=
      .of_newDir hs (.inl rfl)
    refine h.of_footprint hreach hmade fun t n ht hn => ?_
    rw [ht, Disk.FileSpot.get_setAt (.inl hs)] at hn
    obtain rfl := Option.some.inj hn
    rcases List.prefix_concat_iff.1 hp with he | hp
    · rw [hplace, he, Disk.follow_append, Disk.follow_of_no_dots (by decide)] at ht
      exact List.append_cancel_left ht ▸ .assets
    · exact .way ⟨p.names, hp, ht.trans hplace⟩

theorem filled_copyFile (x : String) (hp : p = (s.assetsPath r.project.id).child x)
    (hs : p.name = "" ∨ Path.IsSingle p.name) :
    Preserves (Fills s r a target troubles d₀)
      (Disk.copyFile p ((target.child Save.assetsDir).child p.name) troubles) := by
  subst hp
  refine fun d h => filled_of_puts h (reaches_copyFile hs d) ((copyFile_puts hs d).imp_right ?_)
  rintro ⟨p, more, place, source, mode, mode', c, c', hb, hsource, hbegins, hput⟩
  refine ⟨p, place, mode', c', hput, fun t ht => .begun ?_ hbegins⟩
  rw [hput.spot.eq_placeOf, Disk.placeOf_of_cwd h.reach.cwd, Disk.placeOf_below hb] at ht
  obtain rfl := List.append_cancel_left ht
  have hget := Disk.get_of_walk hsource.leads
  obtain rfl : source = d₀.placeOf ((s.assetsPath r.project.id).child x) :=
    place_of_anchor h.reach.cwd rfl hsource
  by_cases hin : d₀.placeOf target <+: d₀.placeOf ((s.assetsPath r.project.id).child x)
  · obtain ⟨t', ht'⟩ := hin
    exact .part (h.made t' _ (ht' ▸ hget))
  · have hstands := h.reach.stands _ fun htouched => htouched.elim hin fun harchive => nomatch harchive.1
    rw [hget] at hstands
    exact .copy rfl hstands.unneeded

theorem filled_append (h : Filled s r a target troubles d₀ d) (line : ByteArray) :
    Filled s r a target troubles d₀ (d.append line) := by
  have hf : Footprint (fun _ => False) (fun _ => False) d (d.append line) := .of_append line
  exact h.of_footprint (fun _ => .of_append line) hf fun _ _ => False.elim

theorem stepwise_fills : Stepwise s r a target troubles (Fills s r a target troubles d₀) where
  refl := .refl s r a target troubles d₀
  trans := .trans
  mkdir _ hanchor hp := filled_mkdir hanchor hp
  write _ _ hx := filled_write (below_of_mem_texts hx) (made_of_mem_texts hx) _
  chmod _ _ hx mode := filled_chmod (below_of_mem_texts hx) mode
  copyFile x _ hp hs := filled_copyFile x hp hs
  append _ line h := filled_append h line

/-- What is at the target is gone once it is cleared, whether that succeeds or not, unless the system has stopped it. -/
theorem clear_found_cases (troubles : Disk.Troubles) {es : List (String × Node)} (htree : d.root.IsTree)
    (hf : d.Finds target (.found place (.dir es))) :
    IsStopped troubles target place (clear target troubles) d ∨
      (clear target troubles).run d = (Disk.removeTree target).run d := by
  have hprobe := Disk.run_probe_refuses hf.noNul troubles d
  cases hrefuses : troubles.refuses .look target d with
  | some refusal =>
    rw [hrefuses] at hprobe
    refine .inl ⟨refusal, d, ⟨d, .inl hrefuses⟩, ?_, .refl place d⟩
    rw [clear, Disk.pathExists, bind_assoc, run_bind_error hprobe]
  | none =>
    rw [hrefuses] at hprobe
    have hclear : (clear target troubles).run d = (Disk.removeTree target troubles).run d := by
      rw [clear, Disk.pathExists, bind_assoc, run_bind_ok (hprobe.trans (Disk.run_probe_found hf))]
      rfl
    rw [IsStopped, hclear]
    exact Disk.removeTree_found htree hf

theorem filled_clear {es : List (String × Node)}
    (hreach : Footprint (Touches d₀ target .dir) (OnWay d₀ target) d₀ d) (htree : d.root.IsTree)
    (hf : d.Finds target (.found place (.dir es)))
    (hclear : (clear target troubles).run d = (Disk.removeTree target).run d) :
    Filled s r a target troubles d₀ ((clear target troubles).run d).2 := by
  have hplace : place = d₀.placeOf target := place_of_anchor hreach.cwd rfl hf
  have hcleared : Footprint (Touches d₀ target .dir) (OnWay d₀ target) d ((clear target troubles).run d).2 :=
    reaches_clear d hreach.cwd
  obtain ⟨hleft, hheld⟩ := Disk.removeTree_leaves htree hf
  rw [hclear] at hcleared ⊢
  rw [hplace] at hleft hheld
  refine ⟨hreach.trans hcleared, hheld, fun t n hn => ?_⟩
  obtain ⟨rfl, rfl⟩ := hleft t n hn
  exact .way ⟨target.names, List.prefix_refl _, List.append_nil _⟩

theorem filled_install {es : List (String × Node)}
    (hreach : Footprint (Touches d₀ target .dir) (OnWay d₀ target) d₀ w.disk) (htree : w.disk.root.IsTree)
    (hf : w.disk.Finds target (.found place (.dir es)))
    (hclear : (clear target troubles).run w.disk = (Disk.removeTree target).run w.disk) :
    Filled s r a target troubles d₀ ((install s r a target .dir troubles).run w).2.disk := by
  have hcleared := filled_clear (s := s) (r := r) (a := a) hreach htree hf hclear
  rw [install]
  rcases hc : (clear target troubles).run w.disk with ⟨e | u, d⟩
  · rw [run_bind_error (WorkM.run_onDisk_error hc)]
    rwa [hc] at hcleared
  · rw [run_bind_ok (WorkM.run_onDisk_ok hc)]
    rw [hc] at hcleared
    refine Preserves.bind (R := fun w w' : Workspace => Fills s r a target troubles d₀ w.disk w'.disk)
      Fills.trans stepwise_fills.writeBundle (fun _ => ?_) { w with disk := d } hcleared
    exact .bind Fills.trans (WorkM.preserves_onDisk stepwise_fills.writeScripts) fun _ =>
      .pure (fun w => Fills.refl s r a target troubles d₀ w.disk) _

theorem install_stopped (h : IsStopped troubles target place (clear target troubles) w.disk) (format : Format) :
    ∃ refusal d, troubles.Stops target refusal ∧ Remnant place w.disk d ∧
      (install s r a target format troubles).run w =
        (.error (.disk (.refused refusal.errno refusal.path none)), { w with disk := d }) := by
  obtain ⟨refusal, d, hstops, hrun, hremnant⟩ := h
  exact ⟨refusal, d, hstops, hremnant, run_bind_error (WorkM.run_onDisk_error hrun)⟩

theorem remnant_of_logged (h : Logged w w') (place : List String) : Remnant place w.disk w'.disk :=
  h.disk.rel (.refl place) .trans fun _ line => .of_footprint (.of_append line) place

/-! ### The archive -/

theorem spares_pack (hdots : target.name ≠ "..") :
    Preserves (fun d d' => d.cwd = d₀.cwd → Spares (d₀.placeOf target) d d') (pack target troubles) := by
  have htrans : ∀ {d d' d'' : Disk}, (d.cwd = d₀.cwd → Spares (d₀.placeOf target) d d') →
      (d'.cwd = d₀.cwd → Spares (d₀.placeOf target) d' d'') → d.cwd = d₀.cwd →
      Spares (d₀.placeOf target) d d'' := fun h h' hc => (h hc).trans (h' ((h hc).cwd.trans hc))
  rw [pack]
  split
  · exact .throw (fun d _ => .refl _ d) _
  · rename_i hname
    have harchive : ∀ c, Preserves (fun d d' => d.cwd = d₀.cwd → Spares (d₀.placeOf target) d d')
        (Disk.write (archivePath target) c 0o644 troubles) := by
      intro c d hc
      rw [← Disk.placeOf_of_cwd hc]
      obtain ⟨ns, hx⟩ := Path.names_eq_concat hname
      refine Disk.spares_write (leadsApart_archive hx ?_) c _ _
      rw [Disk.placeOf, hx, Disk.follow_append]
      exact Disk.follow_of_no_dots (by simpa using hdots.symm) _
    exact .bind htrans (harchive _) fun _ =>
      .bind htrans ((Disk.readOnly_members target).preserves fun d _ => .refl _ d) fun _ =>
        .bind htrans (harchive _) fun _ => .pure (fun d _ => .refl _ d) _

theorem install_tarGz (s : Store) (r : Recipe) (a : Artifacts) (target : Path) (troubles : Disk.Troubles) :
    install s r a target .tarGz troubles =
      install s r a target .dir troubles >>= fun _ => WorkM.onDisk .disk (pack target troubles) := by
  simp only [install, bind_assoc, pure_bind]

theorem clear_of_install {path : Path} (h : (install s r a target format troubles).run w = (.ok path, w')) :
    ∃ d, (clear target troubles).run w.disk = (.ok (), d) := by
  obtain ⟨u, w₁, hclear, -⟩ := run_bind_eq_ok.1 h
  obtain ⟨d, hclear, -⟩ := WorkM.onDisk_eq_ok hclear
  exact ⟨d, hclear⟩

theorem spares_install {n : Node} (hf : w.disk.Finds target (.found place n))
    (hcleared : (clear target troubles).run w.disk = (Disk.removeTree target).run w.disk) (format : Format) :
    Spares place ((install s r a target .dir troubles).run w).2.disk
      ((install s r a target format troubles).run w).2.disk := by
  cases format with
  | dir => exact .refl _ _
  | tarGz =>
    have hreach : Reaches w.disk target .dir w.disk _ := reaches_install s r a troubles w
    rw [install_tarGz]
    rcases hdir : (install s r a target .dir troubles).run w with ⟨e | path, w₁⟩
    · rw [run_bind_error hdir]
      exact .refl _ _
    · rw [run_bind_ok hdir]
      rw [hdir] at hreach
      obtain ⟨d₁, hclear⟩ := clear_of_install hdir
      rw [hcleared] at hclear
      obtain ⟨-, -, -, -, hdots, -⟩ := Disk.removeTree_eq_ok hclear
      obtain rfl : place = w.disk.placeOf target := Disk.place_eq_follow hf.leads
      exact WorkM.preserves_onDisk (spares_pack hdots) w₁ (hreach rfl).cwd

variable {issues : List Issue} {report : String}

/-- The request without an archive. -/
def Request.unpacked (q : Request) : Request := { q with format := Format.dir.name }

theorem logged_check (r : Recipe) : Preserves Logged (Compile.check r room) := by
  intro w
  rw [Compile.check]
  split
  · exact .refl w
  · exact Workspace.logged_emitAll w [_]

theorem logged_writeTo (hcompile : (Compile.compile r none room).run w = (.ok a, w₁)) :
    Logged ((install s r a target format troubles).run w₁).2
      ((writeTo s r issues target format room troubles).run w).2 := by
  rw [writeTo, run_bind_ok (run_attempt hcompile), run_bind_ok (run_attempt_eq _ w₁)]
  rcases (install s r a target format troubles).run w₁ with ⟨f | path, w₂⟩
  · dsimp only
    split
    · exact Workspace.logged_emit w₂ _
    · exact .refl w₂
  · exact Workspace.logged_emit w₂ _

theorem writeTo_eq_failed {is : List Issue} (hcompile : (Compile.compile r none room).run w = (.ok a, w₁))
    (h : ((writeTo s r issues target format room troubles).run w).1 = .ok (.failed report is)) :
    ∃ f, ((install s r a target format troubles).run w₁).1 = .error f ∧ f.refusal? = some report := by
  rw [writeTo, run_bind_ok (run_attempt hcompile), run_bind_ok (run_attempt_eq _ w₁)] at h
  generalize (install s r a target format troubles).run w₁ = out at h ⊢
  obtain ⟨f | path, w₂⟩ := out
  · refine ⟨f, rfl, ?_⟩
    dsimp only at h
    split at h
    · rename_i hrefusal
      cases h
      exact hrefusal
    · cases h
  · cases h

/-- An export that fails late has come to writing, and would have done so in any format. -/
theorem exportRecipe_eq_failed
    (h : (exportRecipe s q r format room troubles).run w = (.ok (.failed report issues), w'))
    (hlate : ¬ IsEarly report) :
    ∃ a w₁, Logged w w₁ ∧ Artifacts.ofRecipe r (.ofTimestamp w.now) room = .ok a ∧
      (∃ f, ((install s r a (targetOf q r w.tempDir) format troubles).run w₁).1 = .error f ∧
        f.refusal? = some report) ∧
      ∀ q' format', targetOf q' r w.tempDir = targetOf q r w.tempDir →
        Logged ((install s r a (targetOf q r w.tempDir) format' troubles).run w₁).2
          ((exportRecipe s q' r format' room troubles).run w).2 := by
  obtain ⟨is, w₀, hcheck, h⟩ := run_bind_eq_ok.1 h
  have hlogged := (logged_check r).of_run hcheck
  split at h
  · obtain ⟨_, _, -, h⟩ := run_bind_eq_ok.1 h
    cases h
  · rename_i herrors
    rw [run_bind_ok (run_get w₀)] at h
    obtain ⟨b, w₀', hreplace, h⟩ := run_bind_eq_ok.1 h
    obtain rfl := (WorkM.readOnly_onDisk (readOnly_isReplaceable _)).run_eq hreplace
    obtain ⟨d, hreplace, hd⟩ := WorkM.onDisk_eq_ok hreplace
    obtain rfl : d = w₀.disk := (congrArg Workspace.disk hd).symm
    cases b with
    | false =>
      obtain ⟨_, _, -, h⟩ := run_bind_eq_ok.1 h
      cases h
      exact absurd (.inr (.inl rfl)) hlate
    | true =>
      obtain ⟨w₁, hlogged₁, hcompile⟩ := run_compile_eq r room w₀
      rw [hlogged.now] at hcompile
      cases ha : Artifacts.ofRecipe r (.ofTimestamp w.now) room with
      | error f =>
        rw [if_pos rfl, writeTo, run_bind_ok (run_attempt_eq _ w₀), hcompile, ha] at h
        cases hreport : f.report? with
        | none =>
          simp only [Except.mapError, hreport] at h
          cases h
        | some report' =>
          simp only [Except.mapError, hreport] at h
          cases h
          exact absurd (.inr (.inr ⟨f, hreport⟩)) hlate
      | ok a =>
        rw [ha] at hcompile
        rw [hlogged.tempDir] at h hreplace
        have hfailed := writeTo_eq_failed hcompile (congrArg Prod.fst h)
        refine ⟨a, w₁, hlogged.trans hlogged₁, rfl, hfailed, fun q' format' htarget => ?_⟩
        rw [← hlogged.tempDir] at htarget hreplace ⊢
        rw [← htarget] at hreplace ⊢
        rw [run_exportRecipe hcheck (by simpa using herrors) hreplace]
        exact logged_writeTo hcompile

/-- What an export leaves at its target that has failed as it was writing: directories, what the recipe compiles to,
and copies of the files of the project, all made by the export itself, and nothing of what had been there. It is as
much as there would be without an archive. Only where the system has stopped the removal of what had been there, there
is nothing but some of that. -/
theorem failed_export_remains {es : List (String × Node)} (htree : w.disk.root.IsTree)
    (hload : ((s.loadRecipe q.project room troubles).run w).1 = .ok r)
    (htarget : w.disk.Finds (targetOf q r w.tempDir) (.found place (.dir es)))
    (hexport : (exportProject s q room troubles).run w = (.ok (.failed report issues), w'))
    (hlate : ¬ IsEarly report) :
    (∃ a, Artifacts.ofRecipe r (.ofTimestamp w.now) room = .ok a ∧
      (∀ t n, w'.disk.root.get? (place ++ t) = some n →
        Made s r a (targetOf q r w.tempDir) troubles w.disk t n.content?) ∧
      w'.disk.root.get? place = ((exportProject s q.unpacked room troubles).run w).2.disk.root.get? place) ∨
    (∃ refusal, troubles.Stops (targetOf q r w.tempDir) refusal ∧
      report = (DiskFault.refused refusal.errno refusal.path none).message) ∧ Remnant place w.disk w'.disk := by
  cases exportProject_concludes hexport with
  | unsupported => exact absurd (.inl ⟨_, rfl⟩) hlate
  | @loaded r₀ format _ _ _ hl hexported =>
    rw [hl] at hload
    obtain rfl := Except.ok.inj hload
    obtain ⟨a, w₁, hlogged, ha, ⟨f, hfailed, hrefusal⟩, hall⟩ := exportRecipe_eq_failed hexported hlate
    have hwritten := hall q format rfl
    rw [hexported] at hwritten
    have hdir := hall q.unpacked .dir rfl
    rw [← run_exportProject_loaded (q := q.unpacked) rfl hl] at hdir
    -- The log has left the directory at the target, and goes nowhere into what is made of it.
    obtain ⟨es', hleads⟩ := hlogged.disk.grown.leadsTo ⟨es, htarget.leads⟩
    have hfound : w₁.disk.Finds (targetOf q r₀ w.tempDir) (.found place (.dir es')) :=
      ⟨htarget.noNul, htarget.short, hleads⟩
    have htree₁ := hlogged.disk.grown.shape.isTree htree
    rcases clear_found_cases troubles htree₁ hfound with hstopped | hclear
    · obtain ⟨refusal, d, hstops, hremnant, hinstall⟩ := install_stopped (s := s) (r := r₀) (a := a) hstopped format
      rw [hinstall] at hfailed hwritten
      obtain rfl := Except.error.inj hfailed
      have hreport := (Option.some.inj hrefusal).symm
      exact .inr ⟨⟨refusal, hstops, hreport⟩,
        ((remnant_of_logged hlogged place).trans hremnant).trans (remnant_of_logged hwritten place)⟩
    · have hfilled := filled_install (s := s) (r := r₀) (a := a) (reaches_of_logged hlogged rfl) htree₁ hfound hclear
      have hspares := spares_install (s := s) (r := r₀) (a := a) hfound hclear format
      obtain rfl : place = w.disk.placeOf (targetOf q r₀ w.tempDir) := Disk.place_eq_follow htarget.leads
      have hnode := (hwritten.disk.grown.node _ fun l hl => (hspares.held l hl).elim (hfilled.held l) id).trans
        hspares.node
      refine .inl ⟨a, ha, fun t n hn => hfilled.made t n ?_, ?_⟩
      · rwa [Node.get_append, ← hnode, ← Node.get_append]
      · exact hnode.trans (hdir.disk.grown.node _ hfilled.held).symm

/-! ### An archive that cannot be written -/

section

variable {l : List String} {es : List (String × Node)}

theorem run_isReplaceable_bundle {xs : List (String × Node)} (h : d.Finds target (.found place (.dir (content a xs))))
    (hroom : target.Room 12) : (isReplaceable target).run d = (.ok true, d) := by
  have hexists : (Disk.pathExists target).run d = (.ok true, d) := by
    rw [Disk.pathExists, run_bind_ok (Disk.run_probe_found h)]
    rfl
  have hlist : (sortByKey (content a xs)).isEmpty = false := by
    have hlength := (sortByKey_perm (content a xs)).length_eq
    cases hes : sortByKey (content a xs) with
    | nil => rw [hes] at hlength; cases hlength
    | cons e es => rfl
  have hscript := h.entry_some isEntry_scriptFile (hroom.mono (by decide) |>.child isEntry_scriptFile (k := 0)) rfl
  have hrecipe := h.entry_some Save.isEntry_recipeFile
    (hroom.mono (by decide) |>.child Save.isEntry_recipeFile (k := 0)) rfl
  rw [isReplaceable, run_bind_ok hexists]
  simp only [Bool.not_true, Bool.false_eq_true, if_false]
  rw [run_bind_ok (Disk.run_isDir_found h)]
  simp only [Node.isDir, Bool.not_true, Bool.false_eq_true, if_false]
  rw [run_bind_ok (Disk.run_list h), hlist, if_neg (by decide), run_bind_ok (Disk.run_isFile_found hscript)]
  exact Disk.run_isFile_found hrecipe

/-- Where something else has been cleared, an install is the same as where nothing was. -/
theorem install_of_clear (hclear : (clear target).run w.disk = (.ok (), d)) (hfree : d.Missing target) :
    (install s r a target .dir).run w = (install s r a target .dir).run { w with disk := d } := by
  rw [install, run_bind_ok (WorkM.run_onDisk_ok hclear), run_bind_ok (WorkM.run_onDisk_ok (run_clear_missing hfree))]

/-- A directory in the place of the archive fails an install, when the bundle is written. -/
theorem install_blocked (hname : target.name ≠ "")
    (hdir : (install s r a target .dir).run w = (.ok target, w₁))
    (harchive : w₁.disk.Finds (archivePath target) (.found l (.dir es))) :
    (install s r a target .tarGz).run w =
      (.error (.disk (.refused .isDirectory (archivePath target).text none)), w₁) := by
  have hwrite : (Disk.write (archivePath target) (.archive [])).run w₁.disk =
      (.error (.refused .isDirectory (archivePath target).text none), w₁.disk) := by
    rw [Disk.write, Disk.run_find_bind harchive]
    rfl
  have hpack : (pack target).run w₁.disk =
      (.error (.refused .isDirectory (archivePath target).text none), w₁.disk) := by
    rw [pack, if_neg hname, run_bind_error hwrite]
  rw [install_tarGz, run_bind_ok hdir]
  exact WorkM.run_onDisk_error hpack

theorem run_writeTo_failed {f : Failure} {w₂ : Workspace} (hcompile : (Compile.compile r none).run w = (.ok a, w₁))
    (hinstall : (install s r a target format).run w₁ = (.error f, w₂)) (hreport : f.refusal? = some report) :
    (writeTo s r issues target format).run w = (.ok (.failed report issues),
      w₂.emit ⟨.error, logName, "Cannot write bundle to " ++ target.text ++ ": " ++ report⟩) := by
  have hattempt := run_attempt_eq (install s r a target format) w₁
  rw [hinstall] at hattempt
  rw [writeTo, run_bind_ok (run_attempt hcompile), run_bind_ok hattempt]
  simp only [hreport]
  rfl

end

/-- The sample with a bundle of the same recipe, which had a file then, and a directory where its archive would be. -/
def blockedWorkspace (text : String) (a : Artifacts) : Workspace where
  disk :=
    { root := .dir [("store", sampleStore text),
        ("bundle", .dir (content a [("f", .file 0o644 (.bytes ⟨#[1]⟩))])), ("bundle.tar.gz", .dir [])]
      cwd := [] }
  tempDir := ⟨.root, ["tmp"]⟩
  now := .epoch

def blockedRequest : Request := { project := "p", target := some ⟨.root, ["bundle"]⟩, format := "tar.gz" }

theorem isEntry_blocked : ∀ x ∈ ["store", "bundle", "bundle.tar.gz", "p", "assets", "recipe.json", "install.sh",
    "README.txt", "f"], Path.IsEntry x := by
  simp only [List.forall_mem_cons, List.not_mem_nil, false_imp_iff, implies_true, and_true]
  refine ⟨?_, ?_, ?_, ?_, ?_, ?_, ?_, ?_, ?_⟩ <;>
    exact ⟨⟨by simp, by decide, by decide⟩, ⟨by decide, by decide⟩, by decide⟩

theorem isTree_blocked (text : String) (a : Artifacts) : (blockedWorkspace text a).disk.root.IsTree := by
  have hdir := Node.isTree_dir_of_mem isEntry_blocked
  have hempty := hdir [] isKeyed_nil nofun nofun
  have hp := hdir [("assets", .dir []), ("recipe.json", .file 0o600 (.bytes text.toUTF8))] (by simp [IsKeyed])
    (by simp) (by simpa using ⟨hempty, Node.isTree_file _ _⟩)
  have hstore := hdir [("p", _)] (by simp [IsKeyed]) (by simp) (by simpa using hp)
  have hassets := hdir [("f", .file 0o644 (.bytes ⟨#[1]⟩))] (by simp [IsKeyed]) (by simp)
    (by simpa using Node.isTree_file _ _)
  have hbundle := hdir (content a [("f", .file 0o644 (.bytes ⟨#[1]⟩))])
    (by simp [IsKeyed, content, Save.assetsDir, Save.recipeFile, scriptFile, notesFile])
    (by simp [content, Save.assetsDir, Save.recipeFile, scriptFile, notesFile])
    (by simpa [content, Node.isTree_file] using hassets)
  exact hdir [("store", _), ("bundle", _), ("bundle.tar.gz", _)] (by simp [IsKeyed]) (by simp)
    (by simpa using ⟨hstore, hbundle, hempty⟩)

/-- The disk of that workspace once the bundle is cleared. -/
def clearedDisk (text : String) : Disk where
  root := .dir [("store", sampleStore text), ("bundle.tar.gz", .dir [])]
  cwd := []

theorem finds_blocked (text : String) (a : Artifacts) : (blockedWorkspace text a).disk.Finds ⟨.root, ["bundle"]⟩
    (.found ["bundle"] (.dir (content a [("f", .file 0o644 (.bytes ⟨#[1]⟩))]))) :=
  ⟨by decide, by decide, by rfl⟩

theorem install_blockedWorkspace (text : String) (a : Artifacts) :
    ∃ d es, (install ⟨⟨.root, ["store"]⟩⟩ sampleRecipe a ⟨.root, ["bundle"]⟩ .tarGz).run (blockedWorkspace text a) =
        (.error (.disk (.refused .isDirectory "/bundle.tar.gz" none)), { blockedWorkspace text a with disk := d }) ∧
      d.root.get? ["bundle"] = some (.dir es) ∧ es.lookup Save.assetsDir = some (.dir []) := by
  have hclear : (clear ⟨.root, ["bundle"]⟩).run (blockedWorkspace text a).disk = (.ok (), clearedDisk text) := by
    rw [run_clear_found (finds_blocked text a), Disk.removeTree, Disk.run_find_bind (finds_blocked text a)]
    rfl
  have hfree : (clearedDisk text).Finds ⟨.root, ["bundle"]⟩ (.absent ["bundle"]) := ⟨by decide, by decide, by rfl⟩
  have hstore : (clearedDisk text).Finds ⟨.root, ["store"]⟩ (.found ["store"] (sampleStore text)) :=
    ⟨by decide, by decide, by rfl⟩
  have hassets := (finds_sample hstore).2.of_spares (Disk.spares_setAt (some (.dir []))
    (Disk.FileSpot.noDirAt (.inl hfree)) ⟨by decide, by decide⟩)
  obtain ⟨d, mode, es, hinstall, -, htarget, -, hes⟩ := install_copied (s := ⟨⟨.root, ["store"]⟩⟩)
    (r := sampleRecipe) (a := a) (w := { blockedWorkspace text a with disk := clearedDisk text })
    (fun now rec _ => Log.Setup.lines_none now rec) (run_clear_missing hfree.missing)
    (Disk.run_makeDirs_absent hfree) (hfree.setAt_absent _) rfl (fun _ _ _ hn => by cases hn) ⟨by decide, by decide⟩
    hassets (copyable_nil _ _) ⟨by decide, by decide⟩
  -- The directory is still where the archive would be.
  have hout : ¬ Touches (clearedDisk text) ⟨.root, ["bundle"]⟩ .dir ["bundle.tar.gz"] := by
    rintro (h | h)
    · exact absurd (show ["bundle"] <+: ["bundle.tar.gz"] from h) (by decide)
    · cases h.1
  have hreach : Reaches (clearedDisk text) _ _ _ d := (reaches_install _ _ _ _).of_run hinstall
  obtain ⟨es', harchive⟩ := ((hreach rfl).stands _ hout).of_dir
  obtain ⟨es₀, hroot⟩ := Node.isDir_of_get_append (l := []) (t := ["bundle.tar.gz"])
    (by rw [List.nil_append, harchive]; rfl) (List.cons_ne_nil _ _)
  have hentry := (Node.get_concat_of_dir hroot "bundle.tar.gz").symm.trans harchive
  have hblocked : d.Finds (archivePath ⟨.root, ["bundle"]⟩) (.found ["bundle.tar.gz"] (.dir es')) :=
    ⟨by decide, by decide, (Disk.walk_entry hroot ⟨by decide, by decide⟩ hentry []).trans (Disk.walk_nil harchive)⟩
  rw [← install_of_clear (w := blockedWorkspace text a) hclear hfree.missing] at hinstall
  rw [sortByKey, List.mergeSort_nil] at hes
  exact ⟨d, es, install_blocked (by decide) hinstall hblocked, Disk.get_of_walk htarget.leads, hes⟩

theorem not_isEarly_blocked : ¬ IsEarly (DiskFault.refused .isDirectory "/bundle.tar.gz" none).message :=
  not_isEarly_of_refusal (f := .disk (.refused .isDirectory "/bundle.tar.gz" none)) (.inl ⟨_, rfl⟩) rfl

theorem export_blocked {text : String} (htext : sampleRecipe.canonical = .ok text)
    (ha : Artifacts.ofRecipe sampleRecipe (.ofTimestamp .epoch) = .ok a) :
    ∃ w' es, (exportProject ⟨⟨.root, ["store"]⟩⟩ blockedRequest).run (blockedWorkspace text a) =
        (.ok (.failed (DiskFault.refused .isDirectory "/bundle.tar.gz" none).message []), w') ∧
      w'.disk.root.get? ["bundle"] = some (.dir es) ∧ es.lookup Save.assetsDir = some (.dir []) := by
  obtain ⟨d, es, hinstall, htarget, hes⟩ := install_blockedWorkspace text a
  have hquiet : (blockedWorkspace text a).log.IsQuiet := fun now rec _ => Log.Setup.lines_none now rec
  have hstore : (blockedWorkspace text a).disk.Finds ⟨.root, ["store"]⟩ (.found ["store"] (sampleStore text)) :=
    ⟨by decide, by decide, by rfl⟩
  have hload := loadRecipe_sample htext (finds_sample hstore).1
  have hreplace := run_isReplaceable_bundle (finds_blocked text a) ⟨by decide, by decide⟩
  have hcompile := run_compile (congrArg (Prod.mk _) (Workspace.emitAll_of_none (w := blockedWorkspace text a) rfl
    (Compile.records sampleRecipe))) ha
  have hemit : ∀ rec, Workspace.emit rec { blockedWorkspace text a with disk := d } =
      { blockedWorkspace text a with disk := d } := fun rec =>
    Workspace.emitAll_of_none (w := { blockedWorkspace text a with disk := d }) rfl [rec]
  have hchecked := run_check (w := blockedWorkspace text a) hquiet check_sample
  have hformat : Format.ofName? blockedRequest.format = some .tarGz := rfl
  have hrecipe : (exportRecipe ⟨⟨.root, ["store"]⟩⟩ blockedRequest sampleRecipe .tarGz).run
      (blockedWorkspace text a) = _ := run_exportRecipe hchecked rfl hreplace
  have hwrite := hrecipe.trans (run_writeTo_failed hcompile hinstall rfl)
  rw [hemit] at hwrite
  refine ⟨{ blockedWorkspace text a with disk := d }, es, ?_, htarget, hes⟩
  rw [run_exportProject_loaded hformat hload]
  exact hwrite

/-- Where there can be no archive, the bundle is the new one all the same. -/
theorem failed_export_remains_blocked :
    ∃ text a w', sampleRecipe.canonical = .ok text ∧
      (exportProject ⟨⟨.root, ["store"]⟩⟩ blockedRequest).run (blockedWorkspace text a) =
        (.ok (.failed (DiskFault.refused .isDirectory "/bundle.tar.gz" none).message []), w') ∧
      (∀ t n, w'.disk.root.get? ("bundle" :: t) = some n →
        Made ⟨⟨.root, ["store"]⟩⟩ sampleRecipe a ⟨.root, ["bundle"]⟩ .none (blockedWorkspace text a).disk t
          n.content?) ∧
      w'.disk.root.get? ["bundle"] = ((exportProject ⟨⟨.root, ["store"]⟩⟩ blockedRequest.unpacked).run
        (blockedWorkspace text a)).2.disk.root.get? ["bundle"] := by
  obtain ⟨text, htext⟩ := isStorable_sample.canonical
  obtain ⟨a, ha⟩ := ofRecipe_sample htext
  obtain ⟨w', -, hexport, -⟩ := export_blocked htext ha
  have hstore : (blockedWorkspace text a).disk.Finds ⟨.root, ["store"]⟩ (.found ["store"] (sampleStore text)) :=
    ⟨by decide, by decide, by rfl⟩
  have hload := loadRecipe_sample htext (finds_sample hstore).1
  rcases failed_export_remains (s := ⟨⟨.root, ["store"]⟩⟩) (q := blockedRequest) (r := sampleRecipe)
    (isTree_blocked text a) (congrArg Prod.fst hload) (finds_blocked text a) hexport not_isEarly_blocked with
    ⟨a', ha', hmade, hsame⟩ | ⟨⟨refusal, hstops, -⟩, -⟩
  · obtain rfl := Except.ok.inj (ha.symm.trans ha')
    exact ⟨text, a, w', htext, hexport, hmade, hsame⟩
  · exact (Disk.Troubles.not_stops_none _ refusal hstops).elim

/-- The bundle that an export of the same project had left is lost when the export fails: the file in it is gone. -/
theorem failed_export_clears :
    ∃ text a w', sampleRecipe.canonical = .ok text ∧
      IsBundle sampleRecipe .epoch [("f", .file 0o644 (.bytes ⟨#[1]⟩))] ⟨.root, ["bundle"]⟩
        (blockedWorkspace text a).disk ∧
      (exportProject ⟨⟨.root, ["store"]⟩⟩ blockedRequest).run (blockedWorkspace text a) =
        (.ok (.failed (DiskFault.refused .isDirectory "/bundle.tar.gz" none).message []), w') ∧
      ¬ IsEarly (DiskFault.refused .isDirectory "/bundle.tar.gz" none).message ∧
      w'.disk.root.get? ["bundle"] ≠ (blockedWorkspace text a).disk.root.get? ["bundle"] := by
  obtain ⟨text, htext⟩ := isStorable_sample.canonical
  obtain ⟨a, ha⟩ := ofRecipe_sample htext
  obtain ⟨w', es, hexport, htarget, hes⟩ := export_blocked htext ha
  refine ⟨text, a, w', htext, ⟨a, ha, (finds_blocked text a).shown⟩, hexport, not_isEarly_blocked, fun hsame => ?_⟩
  have hbefore : (blockedWorkspace text a).disk.root.get? ["bundle"] =
      some (.dir (content a [("f", .file 0o644 (.bytes ⟨#[1]⟩))])) := rfl
  rw [htarget, hbefore] at hsame
  cases hsame
  cases hes

end Bundle

end Provision
