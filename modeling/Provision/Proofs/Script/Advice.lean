import Provision.Proofs.Script.Confinement
import Provision.Proofs.Shell.HereDocument
import Provision.Proofs.Step.Checking

/-!
# What advice says about the script

A step is advised when no backup is made, when nothing keeps it from unpacking twice, and when its command
runs in the directory of the script. `backup_advice_iff` and `absence_advice_iff` tell for which values of the
setting the advice and the shell block of the step say the same.
-/

namespace Provision

open Shell

/-- The line opens a here-document, so the lines behind it are no code. -/
def Shell.Line.opensDocument : Line → Bool
  | .code t :: _ => "done <<'".toList.isPrefixOf t.toList
  | _ => false

/-- The command that copies the target stands in the code of the line. -/
def Shell.Line.copiesTarget (l : Line) : Bool :=
  l.any fun
    | .code t => t.toList.tails.any (Fragment.copyBackup.toList.isPrefixOf ·)
    | .double _ | .single _ => false

namespace Fragment

variable {f : Fragment}

/-- The lines that the shell reads as code, up to the payload of a here-document. -/
def codeLines (f : Fragment) : List Line :=
  f.lines.takeWhile (!·.opensDocument)

def copiesTarget (f : Fragment) : Bool :=
  f.codeLines.any Line.copiesTarget

/-- All of the block is skipped where a path exists. -/
def IsGuarded (f : Fragment) : Prop :=
  ∃ (path : String) (note : Line) (body : List Line),
    f.lines = [[.code "if [ -e ", .double path, .code " ]; then"], note, [.code "else"]] ++
      body.map Line.indented ++ [[.code "fi"]]

/-- The command runs in the directory of the script, and not in one that was given. -/
def RunsInScriptDir (f : Fragment) : Prop :=
  ∃ command rest, f.lines = [.code "(cd ", .code "\"$SCRIPT_DIR\"", .code command] :: rest

theorem codeLines_eq_lines (h : f.lines.all (!·.opensDocument)) : f.codeLines = f.lines :=
  List.takeWhile_eq_self_iff.2 (List.all_eq_true.1 h)

theorem copiesTarget_append (type file : String) (lines : List String) (unique enabled : Bool)
    (requires : List String) :
    copiesTarget ⟨type, appendLines file lines unique enabled, requires⟩ = enabled := by
  have hopening : (appendOpening file unique enabled).all (!·.opensDocument) := by
    cases unique <;> cases enabled <;> rfl
  have hcode : codeLines ⟨type, appendLines file lines unique enabled, requires⟩ =
      appendOpening file unique enabled := by
    have hlines : appendLines file lines unique enabled = appendOpening file unique enabled ++
        [.code ("done <<'" ++ HereDoc.marker lines ++ "'")] ::
          (lines.map (fun l => [.code l]) ++ [[.code (HereDoc.marker lines)]]) := by
      simp [appendLines, appendOpening]
    have hopens : Line.opensDocument [.code ("done <<'" ++ HereDoc.marker lines ++ "'")] = true := by
      rw [Line.opensDocument, String.append_assoc, String.toList_append, List.isPrefixOf_iff_prefix]
      exact List.prefix_append _ _
    rw [codeLines, hlines, List.takeWhile_append_of_pos (List.all_eq_true.1 hopening),
      List.takeWhile_cons_of_neg (by simp [hopens]), List.append_nil]
  rw [copiesTarget, hcode]
  cases unique <;> cases enabled <;> rfl

theorem copiesTarget_rewrite (type file : String) (enabled : Bool) {filter : Line} (requires : List String)
    (hopens : filter.opensDocument = false) (hcopies : filter.copiesTarget = false) :
    copiesTarget ⟨type, setTarget file :: backup enabled ++ rewriteTarget filter, requires⟩ = enabled := by
  have hset : Line.opensDocument (setTarget file) = false ∧ Line.copiesTarget (setTarget file) = false :=
    ⟨rfl, rfl⟩
  have hbackup : (backup enabled).all (!·.opensDocument) ∧ (backup enabled).any Line.copiesTarget = enabled := by
    cases enabled <;> exact ⟨rfl, rfl⟩
  have hrewrite : (rewriteTarget filter).all (!·.opensDocument) ∧
      (rewriteTarget filter).any Line.copiesTarget = false := by
    have hopens' {l : Line} (hl : l.opensDocument = false) : Line.opensDocument (filter ++ l) = false := by
      cases filter with
      | nil => exact hl
      | cons p ps => cases p <;> exact hopens
    have hcopies' (l : Line) : Line.copiesTarget (filter ++ l) = l.copiesTarget := by
      rw [Line.copiesTarget, List.any_append]
      exact congrArg (· || l.copiesTarget) hcopies
    rw [rewriteTarget, List.all_cons, List.all_cons, List.any_cons, List.any_cons, hopens' rfl, hcopies']
    exact ⟨rfl, rfl⟩
  rw [copiesTarget, codeLines_eq_lines] <;> simp [hset, hbackup, hrewrite]

theorem copiesTarget_delete (type file pattern mode : String) (enabled : Bool) (requires : List String) :
    copiesTarget ⟨type, ofAction (.deleteLines file pattern mode enabled), requires⟩ = enabled := by
  refine copiesTarget_rewrite type file enabled requires ?_ ?_ <;>
  · unfold deleteFilter
    split <;> rfl

theorem copiesTarget_replace (type file pattern replacement mode : String) (enabled : Bool)
    (requires : List String) :
    copiesTarget ⟨type, ofAction (.replace file pattern replacement mode enabled), requires⟩ = enabled := by
  refine copiesTarget_rewrite type file enabled requires ?_ ?_ <;>
  · unfold replaceFilter
    split <;> rfl

theorem isGuarded_extract (type : String) (archive : Archive) (src dest creates : String)
    (requires : List String) :
    IsGuarded ⟨type, extractLines archive src dest creates, requires⟩ ↔ creates ≠ "" := by
  unfold IsGuarded extractLines
  by_cases h : creates = ""
  · simp [h]
  · simp only [ne_eq, h, not_false_eq_true, iff_true]
    exact ⟨creates, _, _, rfl⟩

theorem runsInScriptDir_run (type cmd cwd : String) (requires : List String) :
    RunsInScriptDir ⟨type, runLines cmd cwd, requires⟩ ↔ cwd = "" := by
  unfold RunsInScriptDir runLines
  by_cases h : cwd = ""
  · simp [h]
  · simp [h]

end Fragment

/-! ### Advice -/

section

variable {s : Step} {f : Fragment} {issues : List Issue} {k : Kind} {config : Members} {key : String}

theorem Step.kind_of_name (h : s.type = k.name) : s.kind? = some k := by
  rw [Step.kind?, h]
  exact Kind.ofName_name k

theorem Check.mem_advice_backup (hk : k ∈ [Kind.appendLines, .deleteLines, .replace]) :
    backupDisabled ∈ advice k config ↔ ∃ v, config.get? "backup" = some v ∧ v.flag false = false := by
  simp only [List.mem_cons, List.not_mem_nil, or_false] at hk
  rcases hk with rfl | rfl | rfl <;>
  · simp only [advice]
    cases config.get? "backup" with
    | none => simp
    | some v => cases hv : v.flag false <;> simp [hv]

theorem Check.mem_unless_has {m : String} :
    m ∈ (if config.has key then [] else [m]) ↔ config.get? key = none := by
  rw [Members.has]
  cases h : config.get? key <;> simp

theorem Check.mem_advice_creates (hk : k ∈ [Kind.extractTarGz, .extractZip]) :
    createsUnset ∈ advice k config ↔ config.get? "creates" = none := by
  simp only [List.mem_cons, List.not_mem_nil, or_false] at hk
  rcases hk with rfl | rfl <;> exact mem_unless_has

theorem Check.mem_advice_cwd : cwdUnset ∈ advice .runCmd config ↔ config.get? "cwd" = none :=
  mem_unless_has

/-- Every setting of an editing step is a switch or required, so a step that can be checked has a block. -/
theorem Fragment.exists_of_check (hk : s.kind? = some k) (hedit : k ∈ [Kind.appendLines, .deleteLines, .replace])
    (h : Check.step s = .ok issues) :
    ∃ S, Settings.read k s.config = .ok S ∧
      ofStep s = .ok ⟨s.type, ofAction (Action.ofSettings S k), k.commands⟩ := by
  have hsettings : ∀ d ∈ k.settings, (∃ b, d.2 = .flag b) ∨ d.1 ∈ k.required := by
    simp only [List.mem_cons, List.not_mem_nil, or_false] at hedit
    rcases hedit with rfl | rfl | rfl <;> simp [Kind.settings, Kind.required]
  have htexts := ((Check.exists_step hk).1 ⟨issues, h⟩).1
  obtain ⟨S, hS⟩ : ∃ S, Settings.read k s.config = .ok S := by
    refine Settings.exists_read fun d hd => ?_
    rcases hsettings d hd with ⟨b, hb⟩ | hreq
    · rw [hb]
      exact ⟨_, rfl⟩
    · obtain ⟨t, ht⟩ := htexts d.1 hreq
      exact Json.exists_read_of_text d.2 ht
  exact ⟨S, hS, ofStep_of_kind hk hS⟩

theorem Fragment.copiesTarget_edit (hk : k ∈ [Kind.appendLines, .deleteLines, .replace]) (type : String)
    (S : Settings) (requires : List String) :
    copiesTarget ⟨type, ofAction (Action.ofSettings S k), requires⟩ = S.flag "backup" := by
  simp only [List.mem_cons, List.not_mem_nil, or_false] at hk
  rcases hk with rfl | rfl | rfl
  · exact copiesTarget_append ..
  · exact copiesTarget_delete ..
  · exact copiesTarget_replace ..

/-- A step that edits a file, and can be checked, has a block. It is advised that there is no backup exactly
when the block makes none, unless the setting is there and leaves the switch as it is: then it is advised so
although the block makes a backup. -/
theorem backup_advice_iff (ht : s.type ∈ ["append_lines", "delete_lines", "replace"])
    (h : Check.step s = .ok issues) :
    ∃ f, Fragment.ofStep s = .ok f ∧
      ((∀ v, s.config.get? "backup" = some v → ¬ v.Undecided) →
        (Check.Reports issues Check.backupDisabled ↔ f.copiesTarget = false)) ∧
      ∀ v, s.config.get? "backup" = some v → v.Undecided →
        Check.Reports issues Check.backupDisabled ∧ f.copiesTarget = true := by
  obtain ⟨k, hk, hedit⟩ : ∃ k, s.type = k.name ∧ k ∈ [Kind.appendLines, .deleteLines, .replace] := by
    simp only [List.mem_cons, List.not_mem_nil, or_false] at ht
    rcases ht with ht | ht | ht
    exacts [⟨.appendLines, ht, by simp⟩, ⟨.deleteLines, ht, by simp⟩, ⟨.replace, ht, by simp⟩]
  have hkind := Step.kind_of_name hk
  have hdeclared : k.settings.lookup "backup" = some (.flag true) := by
    simp only [List.mem_cons, List.not_mem_nil, or_false] at hedit
    rcases hedit with rfl | rfl | rfl <;> rfl
  obtain ⟨S, hS, hf⟩ := Fragment.exists_of_check hkind hedit h
  have hreports := (Check.reports_iff hkind h (by simp [Check.advices])).trans
    (Check.mem_advice_backup hedit)
  have hcopies := (Fragment.copiesTarget_edit hedit s.type S k.commands).trans (Settings.flag_of_read hS hdeclared)
  refine ⟨_, hf, fun hdecided => ?_, fun v hv hund => ⟨?_, ?_⟩⟩
  · rw [hreports, hcopies, Members.value]
    cases hv : s.config.get? "backup" with
    | none => simp [Json.flag]
    | some v => simp [Json.flag_eq_flag (hdecided v hv) true false]
  · exact hreports.2 ⟨v, hv, Json.flag_of_undecided hund false⟩
  · rw [hcopies, Members.value, hv]
    exact Json.flag_of_undecided hund true

/-- A step that deletes lines of a file, with a value for its backup. -/
def deleteStep (backup : Json) : Step :=
  { id := "s", name := "n", type := "delete_lines",
    config := [("file", .str "/etc/hosts"), ("match", .str "a"), ("mode", .str "fixed"), ("backup", backup)] }

theorem backup_advice_iff_off :
    Check.step (deleteStep (.str "off")) = .ok [⟨.warn, "s", Check.backupDisabled⟩] ∧
      ∃ f, Fragment.ofStep (deleteStep (.str "off")) = .ok f ∧ f.copiesTarget = false := by
  have hcheck : Check.step (deleteStep (.str "off")) = .ok [⟨.warn, "s", Check.backupDisabled⟩] := by
    rfl
  have hdecided : ∀ v, (deleteStep (.str "off")).config.get? "backup" = some v → ¬ v.Undecided := by
    rintro _ ⟨⟩
    exact fun h => h.2 (by decide)
  obtain ⟨f, hf, hiff, -⟩ := backup_advice_iff (by simp [deleteStep]) hcheck
  exact ⟨hcheck, f, hf, (hiff hdecided).1 ⟨_, List.mem_singleton_self _, rfl⟩⟩

/-- With `null` for the backup, the step is advised that there is none, and makes one. -/
theorem backup_advice_null :
    Check.step (deleteStep .null) = .ok [⟨.warn, "s", Check.backupDisabled⟩] ∧
      ∃ f, Fragment.ofStep (deleteStep .null) = .ok f ∧ f.copiesTarget = true :=
  ⟨rfl, _, rfl, rfl⟩

/-- A step whose required settings are all texts, and that has no modes, can be checked if it has a block. -/
theorem Check.exists_of_read {S : Settings} (hk : s.kind? = some k) (hmodes : k.modes = [])
    (htexts : ∀ key ∈ k.required, k.settings.lookup key = some .text)
    (hS : Settings.read k s.config = .ok S) : ∃ issues, Check.step s = .ok issues :=
  (exists_step hk).2 ⟨fun key hkey => ⟨_, Settings.text_of_read hS (htexts key hkey)⟩, by simp [hmodes]⟩

theorem Settings.text_eq_empty {S : Settings} (hS : Settings.read k config = .ok S)
    (hkey : k.settings.lookup key = some .text) : S.text key = "" ↔ (config.value key).IsBlank :=
  Json.text_eq_empty (text_of_read hS hkey)

/-- Whether the setting is absent is all that counts, unless it is there without a text. -/
theorem Members.isBlank_value (h : ∀ v, config.get? key = some v → ¬ v.IsBlank) :
    (config.value key).IsBlank ↔ config.get? key = none := by
  rw [value]
  cases hv : config.get? key with
  | none => simp [Json.IsBlank]
  | some v => simp [h v hv]

/-- Advice that a setting is absent, where the block has a property exactly if the setting has an empty text. -/
theorem Check.advice_right_iff {S : Settings} {message : String} {P : Prop}
    (hS : Settings.read k s.config = .ok S) (hkey : k.settings.lookup key = some .text)
    (hreports : Reports issues message ↔ s.config.get? key = none) (hP : P ↔ S.text key = "") :
    ((∀ v, s.config.get? key = some v → ¬ v.IsBlank) → (Reports issues message ↔ P)) ∧
      ∀ v, s.config.get? key = some v → v.IsBlank → ¬ Reports issues message ∧ P := by
  rw [Settings.text_eq_empty hS hkey] at hP
  refine ⟨fun hgiven => ?_, fun v hv hblank => ⟨?_, ?_⟩⟩
  · rw [hreports, hP, Members.isBlank_value hgiven]
  · rw [hreports, hv]
    simp
  · rwa [hP, Members.value, hv]

theorem Check.guard_advice (ht : s.type ∈ ["extract_tar_gz", "extract_zip"]) (hf : Fragment.ofStep s = .ok f) :
    ∃ issues, Check.step s = .ok issues ∧
      ((∀ v, s.config.get? "creates" = some v → ¬ v.IsBlank) →
        (Reports issues createsUnset ↔ ¬ f.IsGuarded)) ∧
      ∀ v, s.config.get? "creates" = some v → v.IsBlank → ¬ Reports issues createsUnset ∧ ¬ f.IsGuarded := by
  obtain ⟨k, hk, hextract⟩ : ∃ k, s.type = k.name ∧ k ∈ [Kind.extractTarGz, .extractZip] := by
    simp only [List.mem_cons, List.not_mem_nil, or_false] at ht
    rcases ht with ht | ht
    exacts [⟨.extractTarGz, ht, by simp⟩, ⟨.extractZip, ht, by simp⟩]
  have hkind := Step.kind_of_name hk
  obtain ⟨S, hS, archive, hlines⟩ : ∃ S, Settings.read k s.config = .ok S ∧ ∃ archive, f =
      ⟨s.type, Fragment.extractLines archive (S.text "src") (S.text "dest") (S.text "creates"), k.commands⟩ := by
    simp only [Fragment.ofStep, hkind, Action.read, Except.map_eq_ok] at hf
    obtain ⟨_, ⟨S, hS, rfl⟩, rfl⟩ := hf
    simp only [List.mem_cons, List.not_mem_nil, or_false] at hextract
    rcases hextract with rfl | rfl <;> exact ⟨S, hS, _, rfl⟩
  obtain ⟨hmodes, hrequired, hcreates⟩ : k.modes = [] ∧
      (∀ key ∈ k.required, k.settings.lookup key = some .text) ∧ k.settings.lookup "creates" = some .text := by
    simp only [List.mem_cons, List.not_mem_nil, or_false] at hextract
    rcases hextract with rfl | rfl <;> decide
  obtain ⟨issues, hi⟩ := exists_of_read hkind hmodes hrequired hS
  have hreports := (reports_iff hkind hi (by simp [advices])).trans (mem_advice_creates hextract)
  have hguarded : ¬ f.IsGuarded ↔ S.text "creates" = "" := by
    rw [hlines, Fragment.isGuarded_extract, not_not]
  exact ⟨issues, hi, advice_right_iff hS hcreates hreports hguarded⟩

theorem Check.directory_advice (ht : s.type = "run_cmd") (hf : Fragment.ofStep s = .ok f) :
    ∃ issues, Check.step s = .ok issues ∧
      ((∀ v, s.config.get? "cwd" = some v → ¬ v.IsBlank) →
        (Reports issues cwdUnset ↔ f.RunsInScriptDir)) ∧
      ∀ v, s.config.get? "cwd" = some v → v.IsBlank → ¬ Reports issues cwdUnset ∧ f.RunsInScriptDir := by
  have hkind : s.kind? = some .runCmd := Step.kind_of_name ht
  obtain ⟨S, hS, hlines⟩ : ∃ S, Settings.read .runCmd s.config = .ok S ∧
      f = ⟨s.type, Fragment.runLines (S.text "cmd") (S.text "cwd"), Kind.runCmd.commands⟩ := by
    simp only [Fragment.ofStep, hkind, Action.read, Except.map_eq_ok] at hf
    obtain ⟨_, ⟨S, hS, rfl⟩, rfl⟩ := hf
    exact ⟨S, hS, rfl⟩
  obtain ⟨issues, hi⟩ := exists_of_read hkind rfl (by decide) hS
  have hreports := (reports_iff hkind hi (by simp [advices])).trans mem_advice_cwd
  have hdir : f.RunsInScriptDir ↔ S.text "cwd" = "" := by
    rw [hlines, Fragment.runsInScriptDir_run]
  exact ⟨issues, hi, advice_right_iff hS rfl hreports hdir⟩

/-- Steps that unpack an archive or run a command, and have a block, can be checked. The first are advised to
name a file that keeps them from unpacking twice exactly when the block has no guard, the others that they run
in the directory of the script exactly when the block does so for want of another. This is so unless the
setting is there as `null` or empty: then there is no advice, and the block is as if the setting were absent. -/
theorem absence_advice_iff (hf : Fragment.ofStep s = .ok f) :
    (s.type ∈ ["extract_tar_gz", "extract_zip"] → ∃ issues, Check.step s = .ok issues ∧
      ((∀ v, s.config.get? "creates" = some v → ¬ v.IsBlank) →
        (Check.Reports issues Check.createsUnset ↔ ¬ f.IsGuarded)) ∧
      ∀ v, s.config.get? "creates" = some v → v.IsBlank →
        ¬ Check.Reports issues Check.createsUnset ∧ ¬ f.IsGuarded) ∧
    (s.type = "run_cmd" → ∃ issues, Check.step s = .ok issues ∧
      ((∀ v, s.config.get? "cwd" = some v → ¬ v.IsBlank) →
        (Check.Reports issues Check.cwdUnset ↔ f.RunsInScriptDir)) ∧
      ∀ v, s.config.get? "cwd" = some v → v.IsBlank →
        ¬ Check.Reports issues Check.cwdUnset ∧ f.RunsInScriptDir) :=
  ⟨fun ht => Check.guard_advice ht hf, fun ht => Check.directory_advice ht hf⟩

/-- A step that unpacks an archive, with the file that keeps it from doing so. -/
def unpackStep (creates : Json) : Step :=
  { id := "s", name := "n", type := "extract_zip",
    config := [("src", .str "a.zip"), ("dest", .str "/opt/a"), ("creates", creates)] }

theorem absence_advice_false :
    ∃ f issues, Fragment.ofStep (unpackStep (.bool false)) = .ok f ∧
      Check.step (unpackStep (.bool false)) = .ok issues ∧
      (Check.Reports issues Check.createsUnset ↔ ¬ f.IsGuarded) := by
  have hgiven : ∀ v, (unpackStep (.bool false)).config.get? "creates" = some v → ¬ v.IsBlank := by
    rintro _ ⟨⟩
    simp [Json.IsBlank]
  obtain ⟨hextract, -⟩ := absence_advice_iff (s := unpackStep (.bool false)) rfl
  obtain ⟨issues, hi, hiff, -⟩ := hextract (by simp [unpackStep])
  exact ⟨_, issues, rfl, hi, hiff hgiven⟩

/-- With an empty path, the step has no guard, and no advice. -/
theorem absence_advice_empty :
    Check.step (unpackStep (.str "")) = .ok [] ∧
      ∃ f, Fragment.ofStep (unpackStep (.str "")) = .ok f ∧ ¬ f.IsGuarded :=
  ⟨rfl, _, rfl, fun h => (Fragment.isGuarded_extract ..).1 h rfl⟩

end

end Provision
