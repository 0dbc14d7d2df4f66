import Provision.Proofs.Outcome
import Provision.Proofs.Script.Outline

/-!
# Values stay in their quotes

`Recipe.outline` is what of a recipe may show in the unquoted text of its installer: the names of the
variables, and the kind and the branches of every step. `unquoted_script_eq`: the script of a recipe
without verbatim steps ends outside of quotes, and every recipe with the same outline has a script
with the same unquoted text, whatever the strings in it are. The sections of the script are compared
one by one (`SameOutside`), and of a variable's name only that no quote is in it is needed.
-/

namespace Provision

open Shell

/-- What decides the unquoted text of an installer. A step of an unknown type is `none`. -/
structure Outline where
  names : List String
  steps : List (Option (Kind × Facts))

def Step.outline (s : Step) : Except SettingsFault (Option (Kind × Facts)) :=
  match s.kind? with
  | none => .ok none
  | some k => (Action.read k s.config).map fun a => some (k, a.facts)

def outlineSteps : List Step → Except SettingsFault (List (Option (Kind × Facts)))
  | [] => .ok []
  | s :: rest => do
    let o ← s.outline
    let os ← outlineSteps rest
    return o :: os

def Recipe.outline (r : Recipe) : Except SettingsFault Outline :=
  (outlineSteps r.steps).map fun steps => ⟨r.vars.map (·.1), steps⟩

def Step.isVerbatim (s : Step) : Bool :=
  s.type = Kind.runCmd.name || s.type = Kind.appendLines.name

theorem Kind.name_of_ofName {type : String} {k : Kind} (h : Kind.ofName? type = some k) :
    k.name = type :=
  eq_of_beq (List.find?_some (p := fun k : Kind => k.name == type) h)

theorem Step.kind_not_verbatim {s : Step} {k : Kind} (hs : s.isVerbatim = false)
    (hk : s.kind? = some k) : k.isVerbatim = false := by
  have hn := Kind.name_of_ofName hk
  simp only [isVerbatim, Bool.or_eq_false_iff, decide_eq_false_iff_not, ← hn] at hs
  simp only [Kind.isVerbatim, Bool.or_eq_false_iff, decide_eq_false_iff_not]
  exact ⟨fun h => hs.1 (h ▸ rfl), fun h => hs.2 (h ▸ rfl)⟩

/-- No character is a quote or a backslash. -/
def HasNoQuotes (s : String) : Prop :=
  ∀ c ∈ s.toList, c ≠ '\x27' ∧ c ≠ '\x22' ∧ c ≠ '\\'

theorem HasNoQuotes.plain {s : String} (h : HasNoQuotes s) : SameOutside s s :=
  .plain fun c hc => ⟨(h c hc).1, (h c hc).2.1⟩

theorem HasNoQuotes.inDouble {s : String} (h : HasNoQuotes s) :
    SameOutside ("\"" ++ s ++ "\"") ("\"" ++ s ++ "\"") := by
  have hs : ∀ cs : List Char, (∀ c ∈ cs, c ≠ '\x27' ∧ c ≠ '\x22' ∧ c ≠ '\\') →
      Quote.double.after cs = .double := by
    intro cs hcs
    induction cs with
    | nil => rfl
    | cons c cs ih =>
      have hc := hcs c (by simp)
      rw [Quote.after_cons, Quote.next_double_of_ne hc.2.1 hc.2.2]
      exact ih fun c' h' => hcs c' (by simp [h'])
  refine .refl ?_
  rw [String.toList_append, String.toList_append, Quote.after_append, Quote.after_append]
  show Quote.after (Quote.double.after s.toList) _ = _
  rw [hs _ h]
  rfl

theorem HasNoQuotes.append {s t : String} (hs : HasNoQuotes s) (ht : HasNoQuotes t) :
    HasNoQuotes (s ++ t) := by
  intro c hc
  rw [String.toList_append, List.mem_append] at hc
  exact hc.elim (hs c) (ht c)

theorem hasNoQuotes_of_alphanum {s : String} (h : ∀ c ∈ s.toList, c.isAlphanum ∨ c = '_') :
    HasNoQuotes s := by
  intro c hc
  rcases h c hc with hc | rfl
  · refine ⟨?_, ?_, ?_⟩ <;> (rintro rfl; revert hc; decide)
  · decide

theorem hasNoQuotes_number (n : Nat) : HasNoQuotes (Installer.number n) := by
  refine hasNoQuotes_of_alphanum fun c hc => ?_
  have hn : ¬ ((n : Int) < 0) := by omega
  rw [Installer.number, Decimal.intText, String.toList_ofList, if_neg hn, List.nil_append] at hc
  have hd := Nat.isDigit_of_mem_toDigits (by decide) (by decide) hc
  exact .inl (by simp [Char.isAlphanum, hd])

theorem hasNoQuotes_identifier {s : String} (h : isIdentifier s.toList) : HasNoQuotes s := by
  refine hasNoQuotes_of_alphanum fun c hc => ?_
  revert h hc
  cases s.toList with
  | nil => intro _ hc; cases hc
  | cons d ds =>
    intro h hc
    simp only [isIdentifier, Bool.and_eq_true, List.all_eq_true, isNameStart, isNameChar,
      Bool.or_eq_true, decide_eq_true_eq] at h
    rcases List.mem_cons.1 hc with rfl | hc
    · exact h.1.imp_left fun ha => by simp [Char.isAlphanum, ha]
    · exact h.2 c hc

theorem hasNoQuotes_command {k : Kind} : ∀ c ∈ k.commands, HasNoQuotes c := by
  have h : ∀ c ∈ k.commands, ∀ x ∈ c.toList, x.isAlphanum ∨ x = '_' := by
    cases k <;> simp [Kind.commands]
  exact fun c hc => hasNoQuotes_of_alphanum (h c hc)

theorem Step.outline_eq_none {s : Step} : s.outline = .ok none ↔ s.kind? = none := by
  unfold outline
  cases hk : s.kind? with
  | none => simp
  | some k => simp [Except.map_eq_ok]

theorem Step.outline_eq_some {s : Step} {k : Kind} {fs : Facts} : s.outline = .ok (some (k, fs)) ↔
    s.kind? = some k ∧
      ∃ S, Settings.read k s.config = .ok S ∧ (Action.ofSettings S k).facts = fs := by
  unfold outline
  cases hk : s.kind? with
  | none => simp
  | some k' =>
    simp only [Except.map_eq_ok, Action.read, Option.some.injEq, Prod.mk.injEq]
    constructor
    · rintro ⟨_, ⟨S, hS, rfl⟩, rfl, rfl⟩
      exact ⟨rfl, S, hS, rfl⟩
    · rintro ⟨rfl, S, hS, rfl⟩
      exact ⟨_, ⟨S, hS, rfl⟩, rfl, rfl⟩

theorem Fragment.ofStep_of_kind {s : Step} {k : Kind} {S : Settings} (hk : s.kind? = some k)
    (hS : Settings.read k s.config = .ok S) :
    ofStep s = .ok ⟨s.type, ofAction (Action.ofSettings S k), k.commands⟩ := by
  simp only [ofStep, hk, Action.read, hS, Except.map]

theorem Fragment.ofStep_of_unknown {s : Step} (hk : s.kind? = none) :
    ofStep s = .ok ⟨s.type, unknown s.type, []⟩ := by
  simp only [ofStep, hk]

theorem Step.outline_of_fragment {s : Step} {f : Fragment} (hf : Fragment.ofStep s = .ok f) :
    ∃ o, s.outline = .ok o := by
  unfold Fragment.ofStep at hf
  cases hk : s.kind? with
  | none => exact ⟨none, outline_eq_none.2 hk⟩
  | some k =>
    simp only [hk, Action.read, Except.map_eq_ok] at hf
    obtain ⟨_, ⟨S, hS, rfl⟩, -⟩ := hf
    exact ⟨some (k, _), outline_eq_some.2 ⟨hk, S, hS, rfl⟩⟩

/-- Fragments whose lines leave the same and that need the same commands. -/
structure SameFragment (f f' : Fragment) : Prop where
  lines : SameLines f.lines f'.lines
  requires : f.requires = f'.requires
  commands : ∀ c ∈ f.requires, HasNoQuotes c

theorem sameFragment_of_outline {s s' : Step} {f : Fragment} (hf : Fragment.ofStep s = .ok f)
    (hs : s.isVerbatim = false) (h : s'.outline = s.outline) :
    ∃ f', Fragment.ofStep s' = .ok f' ∧ SameFragment f f' := by
  obtain ⟨o, ho⟩ := Step.outline_of_fragment hf
  rw [ho] at h
  cases o with
  | none =>
    rw [Fragment.ofStep_of_unknown (Step.outline_eq_none.1 ho)] at hf
    cases hf
    exact ⟨_, Fragment.ofStep_of_unknown (Step.outline_eq_none.1 h),
      Fragment.sameLines_unknown _ _, rfl, by simp⟩
  | some o =>
    obtain ⟨hk, S, hS, hfs⟩ := Step.outline_eq_some.1 ho
    obtain ⟨hk', S', hS', hfs'⟩ := Step.outline_eq_some.1 h
    rw [Fragment.ofStep_of_kind hk hS] at hf
    cases hf
    exact ⟨_, Fragment.ofStep_of_kind hk' hS',
      Fragment.sameLines_ofAction (Step.kind_not_verbatim hs hk) (hfs.trans hfs'.symm), rfl,
      hasNoQuotes_command⟩

/-- Fragments of steps in the same order, all of which leave the same. -/
abbrev SameFragments : List (Step × Fragment) → List (Step × Fragment) → Prop :=
  List.Forall₂ fun p p' => SameFragment p.2 p'.2

theorem outlineSteps_cons {s : Step} {rest : List Step} {os : List (Option (Kind × Facts))} :
    outlineSteps (s :: rest) = .ok os ↔
      ∃ o os', s.outline = .ok o ∧ outlineSteps rest = .ok os' ∧ o :: os' = os := by
  simp only [outlineSteps, Except.bind_eq_ok, pure, Except.pure, Except.ok.injEq]
  constructor
  · rintro ⟨o, ho, os', hos, rfl⟩; exact ⟨o, os', ho, hos, rfl⟩
  · rintro ⟨o, os', ho, hos, rfl⟩; exact ⟨o, ho, os', hos, rfl⟩

theorem outlineSteps_nil_iff {steps : List Step} : outlineSteps steps = .ok [] ↔ steps = [] := by
  cases steps with
  | nil => simp [outlineSteps]
  | cons s rest => simp [outlineSteps_cons]

theorem fragments_cons {s : Step} {rest : List Step} {fs : List (Step × Fragment)} :
    Installer.fragments (s :: rest) = .ok fs ↔
      ∃ f fs', Fragment.ofStep s = .ok f ∧ Installer.fragments rest = .ok fs' ∧ (s, f) :: fs' = fs := by
  simp only [Installer.fragments, Except.bind_eq_ok, pure, Except.pure, Except.ok.injEq]
  constructor
  · rintro ⟨f, hf, fs', hfs, rfl⟩; exact ⟨f, fs', hf, hfs, rfl⟩
  · rintro ⟨f, fs', hf, hfs, rfl⟩; exact ⟨f, hf, fs', hfs, rfl⟩

theorem outlineSteps_of_fragments {steps : List Step} {fs : List (Step × Fragment)}
    (hf : Installer.fragments steps = .ok fs) : ∃ os, outlineSteps steps = .ok os := by
  induction steps generalizing fs with
  | nil => exact ⟨[], rfl⟩
  | cons s rest ih =>
    obtain ⟨f, fs', hs, hfs, -⟩ := fragments_cons.1 hf
    obtain ⟨o, ho⟩ := Step.outline_of_fragment hs
    obtain ⟨os, hos⟩ := ih hfs
    exact ⟨o :: os, outlineSteps_cons.2 ⟨o, os, ho, hos, rfl⟩⟩

theorem sameFragments_of_outline {steps steps' : List Step} {fs : List (Step × Fragment)}
    (hf : Installer.fragments steps = .ok fs) (hs : ∀ s ∈ steps, s.isVerbatim = false)
    (h : outlineSteps steps' = outlineSteps steps) :
    ∃ fs', Installer.fragments steps' = .ok fs' ∧ SameFragments fs fs' ∧
      steps'.length = steps.length := by
  induction steps generalizing steps' fs with
  | nil =>
    cases hf
    rw [outlineSteps_nil_iff.1 h]
    exact ⟨[], rfl, .nil, rfl⟩
  | cons s rest ih =>
    obtain ⟨f, fs, hs0, hfs, rfl⟩ := fragments_cons.1 hf
    obtain ⟨o, ho⟩ := Step.outline_of_fragment hs0
    obtain ⟨os, hos⟩ := outlineSteps_of_fragments hfs
    rw [outlineSteps_cons.2 ⟨o, os, ho, hos, rfl⟩] at h
    cases steps' with
    | nil => cases h
    | cons s' rest' =>
      obtain ⟨o', os', ho', hos', he⟩ := outlineSteps_cons.1 h
      cases he
      obtain ⟨f', hf', hff⟩ := sameFragment_of_outline hs0 (hs s (by simp)) (ho'.trans ho.symm)
      obtain ⟨fs', hfs', hffs, hl⟩ :=
        ih hfs (fun t ht => hs t (by simp [ht])) (hos'.trans hos.symm)
      exact ⟨(s', f') :: fs', fragments_cons.2 ⟨f', fs', hf', hfs', rfl⟩, .cons hff hffs,
        by simp [hl]⟩

/-! ### Sections -/

theorem SameFragments.commands {fs fs' : List (Step × Fragment)} (h : SameFragments fs fs') :
    Installer.commands fs' = Installer.commands fs ∧
      ∀ c ∈ Installer.commands fs, HasNoQuotes c := by
  have hr : fs'.flatMap (fun p => p.2.requires) = fs.flatMap (fun p => p.2.requires) ∧
      ∀ c ∈ fs.flatMap (fun p => p.2.requires), HasNoQuotes c := by
    induction h with
    | nil => exact ⟨rfl, by simp⟩
    | @cons p p' fs fs' hp _ ih =>
      simp only [List.flatMap_cons, List.mem_append]
      exact ⟨by rw [ih.1, hp.requires], fun c hc => hc.elim (hp.commands c) (ih.2 c)⟩
  refine ⟨by rw [Installer.commands, Installer.commands, hr.1], fun c hc => hr.2 c ?_⟩
  rw [Installer.commands, Preflight.sortedSet, List.mem_eraseDups, List.mem_mergeSort] at hc
  exact hc

theorem sameOutside_newline : SameOutside "\n" "\n" :=
  .literal (by decide)

theorem sameOutside_block {commands : List String} (h : ∀ c ∈ commands, HasNoQuotes c) :
    SameOutside (Preflight.block commands) (Preflight.block commands) := by
  have one : ∀ c, HasNoQuotes c → List.Forall₂ SameOutside (Preflight.test c) (Preflight.test c) := by
    intro c hc
    refine .cons ?_ (.cons ?_ (.cons (.literal (by decide)) .nil))
    · exact (SameOutside.append (.literal (by decide)) hc.plain).append (.literal (by decide))
    · have he : "  missing+=(\"" ++ c ++ "\")" = "  missing+=(" ++ ("\"" ++ c ++ "\"") ++ ")" := by
        simp only [← String.toList_inj, String.toList_append, List.append_assoc]
        rfl
      rw [he]
      exact (SameOutside.append (.literal (by decide)) hc.inDouble).append (.literal (by decide))
  have all : List.Forall₂ SameOutside (commands.flatMap Preflight.test)
      (commands.flatMap Preflight.test) := by
    induction commands with
    | nil => exact .nil
    | cons c cs ih =>
      rw [List.flatMap_cons]
      exact List.rel_append (one c (h c (by simp))) (ih fun c' hc' => h c' (by simp [hc']))
  refine .append (.intercalate (List.rel_append (List.rel_append ?_ all) ?_)) sameOutside_newline
  · exact .cons (.literal (by decide)) (.cons (.literal (by decide)) .nil)
  · exact .cons (.literal (by decide)) (.cons (.literal (by decide)) (.cons (.literal (by decide))
      (.cons (.literal (by decide)) .nil)))

theorem sameOutside_assignment {name : String} (value value' : String) (h : HasNoQuotes name) :
    List.Forall₂ SameOutside (Installer.assignment name value)
      (Installer.assignment name value') := by
  have he : ∀ v : String, "[ -n \"$\x7b" ++ name ++ ":-\x7d\" ] || " ++ name ++ "=" ++ v =
      "[ -n " ++ ("\"" ++ ("$\x7b" ++ name ++ ":-\x7d") ++ "\"") ++ " ] || " ++ name ++ "=" ++ v := by
    intro v
    simp only [← String.toList_inj, String.toList_append, List.append_assoc]
    rfl
  have hq : HasNoQuotes ("$\x7b" ++ name ++ ":-\x7d") :=
    .append (.append (by simp [HasNoQuotes]) h) (by simp [HasNoQuotes])
  refine .cons ?_ (.cons (.append (.literal (by decide)) h.plain) .nil)
  rw [he, he]
  exact ((((SameOutside.append (.literal (by decide)) hq.inDouble).append (.literal (by decide))).append
    h.plain).append (.literal (by decide))).append (.double value value')

/-- The same names in the same order, none with a quote in it. -/
abbrev SameNames : List (String × String) → List (String × String) → Prop :=
  List.Forall₂ fun v v' => v'.1 = v.1 ∧ HasNoQuotes v.1

theorem SameNames.of_map {vars vars' : List (String × String)}
    (hn : vars'.map (·.1) = vars.map (·.1)) (hq : ∀ v ∈ vars, HasNoQuotes v.1) :
    SameNames vars vars' := by
  induction vars generalizing vars' with
  | nil =>
    rw [List.map_nil, List.map_eq_nil_iff] at hn
    rw [hn]
    exact .nil
  | cons v vars ih =>
    obtain ⟨v', vars', rfl, hv, hvs⟩ := List.map_eq_cons_iff.1 hn
    exact .cons ⟨hv, hq v (by simp)⟩ (ih hvs fun u hu => hq u (by simp [hu]))

theorem SameNames.withLogDir {vars vars' : List (String × String)} (h : SameNames vars vars') :
    SameNames (Installer.withLogDir vars) (Installer.withLogDir vars') := by
  have ha : vars'.any (·.1 == "LOG_DIR") = vars.any (·.1 == "LOG_DIR") := by
    induction h with
    | nil => rfl
    | cons hv _ ih => rw [List.any_cons, List.any_cons, hv.1, ih]
  unfold Installer.withLogDir
  rw [ha]
  split
  · exact h
  · exact List.rel_append h (.cons ⟨rfl, by simp [HasNoQuotes]⟩ .nil)

theorem sameOutside_assignments {vars vars' : List (String × String)} (h : SameNames vars vars') :
    List.Forall₂ SameOutside
      (vars.flatMap fun (name, value) => if isName name then Installer.assignment name value else [])
      (vars'.flatMap fun (name, value) =>
        if isName name then Installer.assignment name value else []) := by
  induction h with
  | nil => exact .nil
  | @cons v v' _ _ hv _ ih =>
    rw [List.flatMap_cons, List.flatMap_cons]
    obtain ⟨name, value⟩ := v
    obtain ⟨name', value'⟩ := v'
    obtain ⟨rfl : name' = name, hq⟩ := hv
    refine List.rel_append ?_ ih
    show List.Forall₂ SameOutside (if isName name' then Installer.assignment name' value else [])
      (if isName name' then Installer.assignment name' value' else [])
    split
    · exact sameOutside_assignment _ _ hq
    · exact .nil

theorem sameOutside_vars {vars vars' : List (String × String)} (h : SameNames vars vars') :
    SameOutside (Installer.varsSection vars) (Installer.varsSection vars') :=
  .append (.intercalate (sameOutside_assignments h.withLogDir)) sameOutside_newline

theorem sameOutside_step {f f' : Fragment} (h : SameFragment f f') (index total : Nat) (s s' : Step) :
    SameOutside (Installer.stepSection index total s f) (Installer.stepSection index total s' f') := by
  have hp : SameOutside (Installer.number index ++ "/" ++ Installer.number total)
      (Installer.number index ++ "/" ++ Installer.number total) :=
    ((hasNoQuotes_number index).plain.append (.literal (by decide))).append (hasNoQuotes_number total).plain
  have hl : List.Forall₂ SameOutside (f.lines.map Line.text) (f'.lines.map Line.text) :=
    List.forall₂_map_left_iff.2 (List.forall₂_map_right_iff.2
      (h.lines.imp fun _ _ hl => hl.sameOutside))
  refine .append (.intercalate (.cons ?_ (.cons ?_ hl))) sameOutside_newline
  · exact (SameOutside.append (.literal (by decide)) hp).append (.literal (by decide))
  · exact .append (.literal (by decide)) (.single _ _)

theorem sameOutside_steps {fs fs' : List (Step × Fragment)} (h : SameFragments fs fs')
    (total index : Nat) :
    List.Forall₂ SameOutside (Installer.stepSections total index fs)
      (Installer.stepSections total index fs') := by
  induction h generalizing index with
  | nil => exact .nil
  | cons hp _ ih => exact .cons (sameOutside_step hp _ _ _ _) (ih _)

/-- The script of a recipe without verbatim steps ends outside of quotes. Another recipe with the same
outline has a script with the same unquoted text, at any time of generation. -/
theorem unquoted_script_eq {r r' : Recipe} {time : Moment} {script : String}
    (hs : Installer.script r time = .ok script)
    (names : ∀ v ∈ r.vars, isIdentifier v.1.toList)
    (steps : ∀ s ∈ r.steps, s.type ≠ "run_cmd" ∧ s.type ≠ "append_lines")
    (same : r'.outline = r.outline) (time' : Moment) :
    Quote.outside.after script.toList = .outside ∧
      ∃ script', Installer.script r' time' = .ok script' ∧
        Quote.outside.after script'.toList = .outside ∧
        Quote.outside.bare script'.toList = Quote.outside.bare script.toList := by
  obtain ⟨fs, hfs, rfl⟩ := Except.map_eq_ok.1 hs
  obtain ⟨os, hos⟩ := outlineSteps_of_fragments hfs
  have ho : r.outline = .ok ⟨r.vars.map (·.1), os⟩ := Except.map_eq_ok.2 ⟨os, hos, rfl⟩
  obtain ⟨os', hos', he⟩ := Except.map_eq_ok.1 (same.trans ho)
  obtain ⟨hnames, rfl⟩ : r'.vars.map (·.1) = r.vars.map (·.1) ∧ os' = os := by simpa using he
  have hv : ∀ s ∈ r.steps, s.isVerbatim = false := by
    intro s h
    simp only [Step.isVerbatim, Bool.or_eq_false_iff, decide_eq_false_iff_not]
    exact steps s h
  obtain ⟨fs', hfs', hff, hl⟩ := sameFragments_of_outline hfs hv (hos'.trans hos.symm)
  have hcmd := hff.commands
  suffices h : SameOutside (Installer.assemble r time fs) (Installer.assemble r' time' fs') by
    obtain ⟨b, ⟨h1, h2⟩, h1', h2'⟩ := h
    exact ⟨h1, _, Except.map_eq_ok.2 ⟨fs', hfs', rfl⟩, h1', h2'.trans h2.symm⟩
  unfold Installer.assemble
  rw [hl, hcmd.1]
  refine .intercalate (List.rel_append (List.rel_append ?_ (sameOutside_steps hff _ _)) ?_)
  · refine .cons ?preamble (.cons ?vars (.cons ?logging (.cons ?banner (.cons ?rootCheck
      (.cons ?commands (.cons ?total .nil))))))
    case preamble => exact .append (.literal (by decide)) (.literal (by decide))
    case vars => exact sameOutside_vars (.of_map hnames fun v h => hasNoQuotes_identifier (names v h))
    case logging => exact .append (.literal (by decide)) (.literal (by decide))
    case banner => exact (SameOutside.append (.literal (by decide)) (.single _ _)).append sameOutside_newline
    case rootCheck => exact .append (.literal (by decide)) (.literal (by decide))
    case commands => exact sameOutside_block hcmd.2
    case total =>
      exact (SameOutside.append (.literal (by decide)) (hasNoQuotes_number _).plain).append
        sameOutside_newline
  · exact .cons (.literal (by decide)) .nil

/-- A recipe with a variable, a step of a known type and one of an unknown type. -/
def sampleRecipe (value name path : String) : Recipe :=
  { Recipe.starter "p" name .epoch with
    vars := [("ROOT", value)]
    steps := [{ id := name, name, type := "mkdir", config := [("path", .str path)] },
      { id := name, name, type := name }] }

theorem unquoted_script_eq_hostile :
    ∃ script script',
      Installer.script (sampleRecipe "/opt" "demo" "/opt/a") (.ofTimestamp .epoch) = .ok script ∧
        Installer.script (sampleRecipe "\"; reboot #" "'; reboot; '" "$(x)\\\"\x60")
          (.ofTimestamp .epoch) = .ok script' ∧
        Quote.outside.after script.toList = .outside ∧
        Quote.outside.after script'.toList = .outside ∧
        Quote.outside.bare script'.toList = Quote.outside.bare script.toList := by
  have hs : Installer.script (sampleRecipe "/opt" "demo" "/opt/a") (.ofTimestamp .epoch) =
      .ok (Installer.assemble (sampleRecipe "/opt" "demo" "/opt/a") (.ofTimestamp .epoch) _) := rfl
  have same : (sampleRecipe "\"; reboot #" "'; reboot; '" "$(x)\\\"\x60").outline =
      (sampleRecipe "/opt" "demo" "/opt/a").outline := rfl
  obtain ⟨h, script', hs', h', he⟩ :=
    unquoted_script_eq hs (by decide) (by decide) same (.ofTimestamp .epoch)
  exact ⟨_, script', hs, hs', h, h', he⟩

end Provision
