import Provision.Proofs.Json.Readable
import Provision.Proofs.Script.Advice
import Provision.Proofs.Script.Faults

/-!
# What a check promises to the script

The checks look at the settings as they are written, the script at the action read from them.
`checked_step_suffices`: the two agree. A required setting is reported as missing exactly when its text in the
action is empty, a list that is reported missing is empty, and a mode that is accepted is the mode of the
command in the block. A step is reported as of an unknown type exactly when its block fails for that reason.
-/

namespace Provision

open Shell

variable {s : Step} {k : Kind} {a : Action} {config : Members} {key : String} {issues : List Issue}

namespace Action

/-- The texts of an action, under the names of the settings that they are read from. -/
def texts : Action → List (String × String)
  | .mkdir path => [("path", path)]
  | .copy src dest _ mode => [("src", src), ("dest", dest), ("mode", mode)]
  | .chmod path mode => [("path", path), ("mode", mode)]
  | .chown path owner group => [("path", path), ("owner", owner), ("group", group)]
  | .extract _ src dest creates => [("src", src), ("dest", dest), ("creates", creates)]
  | .rpmInstall _ mode _ => [("mode", mode)]
  | .appendLines file _ _ _ => [("file", file)]
  | .deleteLines file pattern mode _ => [("file", file), ("match", pattern), ("mode", mode)]
  | .replace file pattern replacement mode _ =>
    [("file", file), ("pattern", pattern), ("replacement", replacement), ("mode", mode)]
  | .runCmd cmd cwd => [("cmd", cmd), ("cwd", cwd)]
  | .service _ src name _ => [("src", src), ("name", name)]
  | .autoService name sysvSrc systemdSrc _ =>
    [("name", name), ("sysv_src", sysvSrc), ("systemd_src", systemdSrc)]

def lists : Action → List (String × List String)
  | .rpmInstall rpms _ _ => [("rpms", rpms)]
  | .appendLines _ lines _ _ => [("lines", lines)]
  | _ => []

/-- The options that an action adds to those of its mode. -/
def extraOptions : Action → List String
  | .rpmInstall _ _ true => ["--nodeps"]
  | _ => []

end Action

def Form.isText : Form → Bool
  | .text => true
  | _ => false

def Form.isList : Form → Bool
  | .words | .lines => true
  | _ => false

theorem Action.texts_ofSettings (S : Settings) (k : Kind) :
    (ofSettings S k).texts = (k.settings.filter (·.2.isText)).map fun d => (d.1, S.text d.1) := by
  cases k <;> rfl

theorem Action.lists_ofSettings (S : Settings) (k : Kind) :
    (ofSettings S k).lists = (k.settings.filter (·.2.isList)).map fun d => (d.1, S.list d.1) := by
  cases k <;> rfl

theorem Kind.lookup_settings {d : String × Form} (h : d ∈ k.settings) : k.settings.lookup d.1 = some d.2 := by
  revert d
  cases k <;> decide

theorem Kind.exists_setting (h : key ∈ k.required) :
    ∃ d ∈ k.settings, d.1 = key ∧ (d.2.isText = true ∨ d.2.isList = true) := by
  revert key
  cases k <;> decide

theorem Json.words_of_isBlank {v : Json} (h : v.IsBlank) : v.words = .ok [] ∧ v.lines = .ok [] := by
  rcases h with rfl | rfl <;> exact ⟨rfl, rfl⟩

theorem Settings.list_of_isBlank {S : Settings} {d : String × Form} (hS : read k config = .ok S)
    (hd : d ∈ k.settings) (hlist : d.2.isList = true) (hblank : (config.value d.1).IsBlank) : S.list d.1 = [] := by
  obtain ⟨v, hv, hr⟩ := lookup_of_read hS (Kind.lookup_settings hd)
  obtain ⟨hwords, hlines⟩ := Json.words_of_isBlank hblank
  rw [Members.value] at hwords hlines
  obtain ⟨key, form⟩ := d
  cases form with
  | words =>
    simp only [Form.read, hwords] at hr
    cases hr
    rw [list, hv]
  | lines =>
    simp only [Form.read, hlines] at hr
    cases hr
    rw [list, hv]
  | text | flag => cases hlist

namespace Check

theorem required_injective {key key' : String} (h : required key = required key') : key = key' :=
  String.append_left_inj _ |>.1 h

theorem mem_step_required (hk : s.kind? = some k) (h : step s = .ok issues) (hkey : key ∈ k.required) :
    ⟨.error, s.id, required key⟩ ∈ issues ↔ (s.config.value key).IsBlank := by
  obtain ⟨missing, bad, hmissing, -, rfl⟩ := (step_eq_ok hk).1 h
  have hmode : required key ≠ modeMessage k := by
    revert key
    cases k <;> decide
  have hbad : (⟨.error, s.id, required key⟩ : Issue) ∉
      (if bad then [⟨.error, s.id, modeMessage k⟩] else [] : List Issue) := by
    cases bad <;> simp [hmode]
  have hadvice : (⟨.error, s.id, required key⟩ : Issue) ∉ (advice k s.config).map (⟨.warn, s.id, ·⟩) := by
    simp
  rw [List.mem_append, List.mem_append, or_iff_left hadvice, or_iff_left hbad, List.mem_map]
  constructor
  · rintro ⟨key', hkey', heq⟩
    obtain rfl := required_injective (congrArg Issue.message heq)
    exact ((mem_unset hmissing).1 hkey').2
  · exact fun hblank => ⟨key, (mem_unset hmissing).2 ⟨hkey, hblank⟩, rfl⟩

/-- The findings agree with the action on the settings that are required: each is one of the action's texts or
lists, and reported as missing if it is an empty text, and only if it is empty. A text that is not empty is
that of the value as it was given. -/
structure Covers (s : Step) (k : Kind) (a : Action) (issues : List Issue) : Prop where
  named : ∀ key ∈ k.required, (∃ t, (key, t) ∈ a.texts) ∨ ∃ ts, (key, ts) ∈ a.lists
  missing : ∀ key ∈ k.required, ∀ t, (key, t) ∈ a.texts →
    (⟨.error, s.id, required key⟩ ∈ issues ↔ t = "")
  given : ∀ key ∈ k.required, ∀ t, (key, t) ∈ a.texts → t ≠ "" →
    ∃ v, s.config.get? key = some v ∧ v.text = .ok t
  empty : ∀ key ∈ k.required, ∀ ts, (key, ts) ∈ a.lists → ⟨.error, s.id, required key⟩ ∈ issues → ts = []

end Check

section

variable {S : Settings}

theorem Action.mem_texts {t : String} :
    (key, t) ∈ (ofSettings S k).texts ↔ ∃ d ∈ k.settings, d.2.isText = true ∧ d.1 = key ∧ S.text d.1 = t := by
  simp only [texts_ofSettings, List.mem_map, List.mem_filter, Prod.mk.injEq, and_assoc]

theorem Action.mem_lists {ts : List String} :
    (key, ts) ∈ (ofSettings S k).lists ↔ ∃ d ∈ k.settings, d.2.isList = true ∧ d.1 = key ∧ S.list d.1 = ts := by
  simp only [lists_ofSettings, List.mem_map, List.mem_filter, Prod.mk.injEq, and_assoc]

theorem Settings.text_of_mem {d : String × Form} (hS : Settings.read k config = .ok S) (hd : d ∈ k.settings)
    (ht : d.2.isText = true) : (config.value d.1).text = .ok (S.text d.1) := by
  refine text_of_read hS ?_
  rw [Kind.lookup_settings hd]
  cases hform : d.2 <;> simp [hform, Form.isText] at ht ⊢

theorem Check.covers (hk : s.kind? = some k) (hS : Settings.read k s.config = .ok S)
    (h : step s = .ok issues) : Covers s k (Action.ofSettings S k) issues where
  named key hkey := by
    obtain ⟨d, hd, rfl, htext | hlist⟩ := Kind.exists_setting hkey
    · exact .inl ⟨_, Action.mem_texts.2 ⟨d, hd, htext, rfl, rfl⟩⟩
    · exact .inr ⟨_, Action.mem_lists.2 ⟨d, hd, hlist, rfl, rfl⟩⟩
  missing key hkey t ht := by
    obtain ⟨d, hd, htext, rfl, rfl⟩ := Action.mem_texts.1 ht
    rw [mem_step_required hk h hkey, Json.text_eq_empty (Settings.text_of_mem hS hd htext)]
  given key _ t ht hne := by
    obtain ⟨d, hd, htext, rfl, rfl⟩ := Action.mem_texts.1 ht
    have hvalue := Settings.text_of_mem hS hd htext
    rw [Members.value] at hvalue
    cases hv : s.config.get? d.1 with
    | some v => exact ⟨v, rfl, by rwa [hv] at hvalue⟩
    | none =>
      rw [hv] at hvalue
      exact absurd (Except.ok.inj hvalue).symm hne
  empty key hkey ts hts hreported := by
    obtain ⟨d, hd, hlist, rfl, rfl⟩ := Action.mem_lists.1 hts
    exact Settings.list_of_isBlank hS hd hlist ((mem_step_required hk h hkey).1 hreported)

end

/-! ### Modes -/

/-- The first words of a line, before the first value. -/
def Shell.Line.opening : Line → List String
  | .code t :: _ => wordsOf t
  | _ => []

def isOption (word : String) : Bool :=
  word.toList.head? = some '-'

/-- The options that a line gives to a program it runs. A brace may stand before the program. -/
def Shell.Line.optionsOf? (program : String) (l : Line) : Option (List String) :=
  match l.opening.dropWhile (· == "\x7b") with
  | [] => none
  | word :: rest => if word = program then some (rest.takeWhile isOption) else none

/-- The options of a program, for each line of a block that runs it. -/
def Fragment.optionsOf (program : String) (f : Fragment) : List (List String) :=
  f.lines.filterMap (·.optionsOf? program)

/-- The modes of a kind, each with the program that is run and the options that stand for the mode. -/
def Kind.modeOptions : Kind → List (String × String × List String)
  | rpmInstall => [("upgrade", "rpm", ["-Uvh"]), ("install", "rpm", ["-ivh"])]
  | deleteLines => [("regex", "grep", ["-Ev", "--"]), ("fixed", "grep", ["-Fv", "--"])]
  | replace => [("regex", "sed", ["-r"]), ("fixed", "sed", [])]
  | _ => []

/-- The block runs its program once, with the options of the action's mode, which is one of those accepted.
Without any packages there is nothing to run. -/
def Fragment.UsesMode (k : Kind) (a : Action) (f : Fragment) : Prop :=
  ∃ mode program options, ("mode", mode) ∈ a.texts ∧ Text.lower mode ∈ k.modes ∧
    (Text.lower mode, program, options) ∈ k.modeOptions ∧
    (f.optionsOf program = [options ++ a.extraOptions] ∨ ("rpms", []) ∈ a.lists ∧ f.optionsOf program = [])

theorem Kind.exists_modeOptions {m : String} (h : m ∈ k.modes) : ∃ e ∈ k.modeOptions, e.1 = m := by
  revert m
  cases k <;> decide

namespace Fragment

variable {mode program : String} {options : List String} (type : String) (requires : List String)

theorem optionsOf_rpm {rpms : List String} {nodeps : Bool}
    (h : (Text.lower mode, program, options) ∈ Kind.rpmInstall.modeOptions) :
    optionsOf program ⟨type, ofAction (.rpmInstall rpms mode nodeps), requires⟩ =
      if rpms = [] then [] else [options ++ Action.extraOptions (.rpmInstall rpms mode nodeps)] := by
  simp only [Kind.modeOptions, List.mem_cons, Prod.mk.injEq, List.not_mem_nil, or_false] at h
  rcases h with ⟨h, rfl, rfl⟩ | ⟨h, rfl, rfl⟩ <;>
  · simp only [ofAction, rpmLines, h]
    cases rpms <;> cases nodeps <;> rfl

theorem optionsOf_delete {file pattern : String} {enabled : Bool}
    (h : (Text.lower mode, program, options) ∈ Kind.deleteLines.modeOptions) :
    optionsOf program ⟨type, ofAction (.deleteLines file pattern mode enabled), requires⟩ = [options] := by
  simp only [Kind.modeOptions, List.mem_cons, Prod.mk.injEq, List.not_mem_nil, or_false] at h
  rcases h with ⟨h, rfl, rfl⟩ | ⟨h, rfl, rfl⟩ <;>
  · simp only [ofAction, deleteFilter, h]
    cases enabled <;> rfl

theorem optionsOf_replace {file pattern replacement : String} {enabled : Bool}
    (h : (Text.lower mode, program, options) ∈ Kind.replace.modeOptions) :
    optionsOf program ⟨type, ofAction (.replace file pattern replacement mode enabled), requires⟩ = [options] := by
  simp only [Kind.modeOptions, List.mem_cons, Prod.mk.injEq, List.not_mem_nil, or_false] at h
  rcases h with ⟨h, rfl, rfl⟩ | ⟨h, rfl, rfl⟩ <;>
  · simp only [ofAction, replaceFilter, h]
    cases enabled <;> rfl

theorem usesMode {S : Settings} (hk : k ∈ [Kind.rpmInstall, .deleteLines, .replace])
    (hmode : Text.lower (S.text "mode") ∈ k.modes) :
    UsesMode k (Action.ofSettings S k) ⟨type, ofAction (Action.ofSettings S k), requires⟩ := by
  obtain ⟨⟨_, program, options⟩, he, rfl⟩ := Kind.exists_modeOptions hmode
  simp only [List.mem_cons, List.not_mem_nil, or_false] at hk
  rcases hk with rfl | rfl | rfl
  · refine ⟨_, program, options, List.mem_singleton_self _, hmode, he, ?_⟩
    rw [Action.ofSettings, optionsOf_rpm type requires he]
    by_cases hrpms : S.list "rpms" = []
    · exact .inr ⟨by simp [Action.lists, hrpms], if_pos hrpms⟩
    · exact .inl (if_neg hrpms)
  · refine ⟨_, program, options, by simp [Action.ofSettings, Action.texts], hmode, he, .inl ?_⟩
    rw [Action.ofSettings, optionsOf_delete type requires he]
    simp [Action.extraOptions]
  · refine ⟨_, program, options, by simp [Action.ofSettings, Action.texts], hmode, he, .inl ?_⟩
    rw [Action.ofSettings, optionsOf_replace type requires he]
    simp [Action.extraOptions]

end Fragment

/-- Where nothing is reported as an error, the mode is one of those that the kind accepts. -/
theorem Check.mode_accepted {S : Settings} (hk : s.kind? = some k) (hS : Settings.read k s.config = .ok S)
    (hmode : k.settings.lookup "mode" = some .text) (hmodes : k.modes ≠ []) (h : step s = .ok issues)
    (herrors : hasErrors issues = false) : Text.lower (S.text "mode") ∈ k.modes := by
  obtain ⟨missing, bad, -, hbad, rfl⟩ := (step_eq_ok hk).1 h
  cases bad with
  | true => simp [hasErrors, Issue.blocking] at herrors
  | false =>
    have hvalue := Settings.text_of_read hS hmode
    rw [Members.value] at hvalue
    rw [hasBadMode, hvalue, if_neg (by simpa using hmodes)] at hbad
    simpa [Except.map] using hbad

theorem Check.unknownType_not_mem (type : String) : unknownType type ∉ advices := by
  have hothers : ∀ m ∈ advices, m.toList.head? ≠ some 'u' := by decide +kernel
  have hunknown : "unknown step type ".toList.head? = some 'u' := by decide +kernel
  refine fun h => hothers _ h ?_
  change ("unknown step type " ++ type).toList.head? = some 'u'
  rw [String.toList_append, List.head?_append, hunknown, Option.some_or]

theorem Check.unknown_iff :
    (∃ issues, step s = .ok issues ∧ ⟨.warn, s.id, unknownType s.type⟩ ∈ issues) ↔ s.kind? = none := by
  cases hk : s.kind? with
  | none => exact iff_of_true ⟨_, by rw [step, hk], List.mem_singleton_self _⟩ rfl
  | some k =>
    refine iff_of_false ?_ (Option.some_ne_none k)
    rintro ⟨issues, h, hmem⟩
    obtain ⟨missing, bad, -, -, rfl⟩ := (step_eq_ok hk).1 h
    rcases List.mem_append.1 hmem with hmem | hmem
    · cases bad <;> simp at hmem
    · obtain ⟨m, hm, heq⟩ := List.mem_map.1 hmem
      obtain rfl : m = unknownType s.type := congrArg Issue.message heq
      exact unknownType_not_mem _ (advice_subset _ _ hm)

theorem Fragment.ofAction_ne_unknown (a : Action) (type : String) : ofAction a ≠ unknown type := by
  intro h
  have hfirst := congrArg (fun ls : List Line => ls.head?.bind (·.head?)) h
  cases a with
  | copy src dest overwrite mode => cases overwrite <;> simp [ofAction, copyLines, unknown] at hfirst
  | extract archive src dest creates =>
    by_cases hcreates : creates = "" <;> simp [ofAction, extractLines, unknown, hcreates] at hfirst
  | rpmInstall rpms mode nodeps => cases rpms <;> simp [ofAction, rpmLines, unknown] at hfirst
  | service init src name start =>
    cases init <;> simp [ofAction, sysvService, systemdService, unknown] at hfirst
  | _ =>
    simp [ofAction, unknown, appendLines, setTarget, runLines, autoServiceLines] at hfirst

theorem Fragment.unknown_iff :
    (∃ f, ofStep s = .ok f ∧ f.lines = unknown s.type) ↔ s.kind? = none := by
  cases hk : s.kind? with
  | none => exact iff_of_true ⟨_, by rw [ofStep, hk], rfl⟩ rfl
  | some k =>
    refine iff_of_false ?_ (Option.some_ne_none k)
    rintro ⟨f, h, hlines⟩
    simp only [ofStep, hk] at h
    obtain ⟨a, -, rfl⟩ := Except.map_eq_ok.1 h
    exact ofAction_ne_unknown a s.type hlines

/-- A step of a known kind whose settings can be read, and whose required settings have texts, can be checked
and has a block. What the check finds about required settings holds of the action, and where it finds no error
in a kind with modes, the block runs its program in the mode that was accepted. A step is found to be of an
unknown type exactly if its block is the one that fails for it. -/
theorem checked_step_suffices (s : Step) :
    (∀ k a, s.kind? = some k → Action.read k s.config = .ok a →
      (∀ key ∈ k.required, (s.config.value key).HasText Json.freeCalls) →
      ∃ issues f, Check.step s = .ok issues ∧ Fragment.ofStep s = .ok f ∧ Check.Covers s k a issues ∧
        (k ∈ [Kind.rpmInstall, .deleteLines, .replace] → hasErrors issues = false → f.UsesMode k a)) ∧
    ((∃ issues, Check.step s = .ok issues ∧ ⟨.warn, s.id, Check.unknownType s.type⟩ ∈ issues) ↔
      ∃ f, Fragment.ofStep s = .ok f ∧ f.lines = Fragment.unknown s.type) := by
  refine ⟨fun k a hk ha htexts => ?_, Check.unknown_iff.trans Fragment.unknown_iff.symm⟩
  obtain ⟨S, hS, rfl⟩ := Except.map_eq_ok.1 ha
  have htext : ∀ key ∈ k.required, ∃ t, (s.config.value key).text = .ok t :=
    fun key hkey => Json.exists_text_iff.2 (htexts key hkey)
  obtain ⟨issues, h⟩ : ∃ issues, Check.step s = .ok issues := (Check.exists_step hk).2
    ⟨htext, fun hmodes => htext "mode" (Kind.mode_mem_required hmodes)⟩
  refine ⟨issues, _, h, Fragment.ofStep_of_kind hk hS, Check.covers hk hS h, fun hmodes herrors => ?_⟩
  have hdeclared : k.settings.lookup "mode" = some .text ∧ k.modes ≠ [] := by
    simp only [List.mem_cons, List.not_mem_nil, or_false] at hmodes
    rcases hmodes with rfl | rfl | rfl <;> exact ⟨rfl, nofun⟩
  exact Fragment.usesMode _ _ hmodes (Check.mode_accepted hk hS hdeclared.1 hdeclared.2 h herrors)

/-- A step that installs a package, with the mode in other letters than its name. -/
def packageStep : Step :=
  { id := "s", name := "n", type := "rpm_install",
    config := [("rpms", .str "a.rpm"), ("mode", .str "Upgrade"), ("nodeps", .bool true)] }

theorem checked_step_suffices_packages :
    Check.step packageStep = .ok [] ∧ ∃ f, Fragment.ofStep packageStep = .ok f ∧
      f.UsesMode .rpmInstall (.rpmInstall ["a.rpm"] "Upgrade" true) := by
  have hcheck : Check.step packageStep = .ok [] := rfl
  have htexts : ∀ key ∈ Kind.rpmInstall.required, (packageStep.config.value key).HasText Json.freeCalls := by
    intro key hkey
    simp only [Kind.required, List.mem_cons, List.not_mem_nil, or_false] at hkey
    rcases hkey with rfl | rfl <;> exact Json.exists_text_iff.1 ⟨_, rfl⟩
  obtain ⟨issues, f, hissues, hf, -, huses⟩ := (checked_step_suffices packageStep).1 .rpmInstall
    (.rpmInstall ["a.rpm"] "Upgrade" true) rfl rfl htexts
  cases hcheck.symm.trans hissues
  exact ⟨hcheck, f, hf, huses (by simp) rfl⟩

end Provision
