import Provision.Proofs.Command.Runs
import Provision.Proofs.Disk.Room
import Provision.Proofs.Workspace

/-!
# Command lines that are prepared

A word that begins with no dash is taken as it is. A recipe file is checked, and a project exported, by such words
alone, with or without the switch for JSON, once the configuration is loaded (`prepared_validate`,
`prepared_export`). In an environment without variables, at a root without a settings file, that is the default
configuration (`start_default`).
-/

namespace Provision.Command

variable {n : Name} {word file id : String} {words rest : List String} {env : Configuration.Environment} {o : Output}
  {w w' : Workspace} {c : Context} {x : Argument}

theorem isOption_iff : isOption word = true ↔ ['-'] <+: word.toList ∧ word ≠ "-" := by
  rw [isOption, Bool.and_eq_true, String.startsWith_string_iff, decide_eq_true_iff]
  rfl

theorem isOption_eq_false (h : ¬ ['-'] <+: word.toList) : isOption word = false :=
  Bool.eq_false_iff.2 fun hoption => h (isOption_iff.1 hoption).1

theorem ne_dashes (h : isOption word = false) : word ≠ "--" := by
  rintro rfl
  have hdashes : isOption "--" = true := isOption_iff.2 (by decide)
  cases h.symm.trans hdashes

/-- The switch for JSON, as it is given or not. -/
def jsonWords (json : Bool) : List String :=
  if json then ["--json"] else []

def jsonGiven (json : Bool) : List Given :=
  if json then [⟨Name.json, none⟩] else []

theorem read_group (h : isOption word = false) (hn : n.signature.isGroup = true) :
    Line.read n.signature (word :: rest) = .ok ⟨[], word :: rest⟩ := by
  rw [Line.read, if_neg (ne_dashes h), if_neg (by simp [h]), if_pos hn]

theorem read_words (h : isOption word = false) (hn : n.signature.isGroup = false)
    (hjson : readWord n.signature.options "--json" = .ok ⟨[⟨Name.json, none⟩], none⟩) (json : Bool) :
    Line.read n.signature (jsonWords json ++ [word]) = .ok ⟨jsonGiven json, [word]⟩ := by
  have hword : Line.read n.signature [word] = .ok ⟨[], [word]⟩ := by
    rw [Line.read, if_neg (ne_dashes h), if_neg (by simp [h]), if_neg (by simp [hn])]
    rfl
  cases json with
  | false => exact hword
  | true =>
    have hoption : isOption "--json" = true := isOption_iff.2 (by decide)
    change Line.read n.signature ["--json", word] = _
    rw [Line.read, if_neg (by decide), if_pos hoption, hjson]
    exact Except.bind_eq_ok.2 ⟨_, rfl, Except.bind_eq_ok.2 ⟨_, hword, rfl⟩⟩

theorem ends_readLine_group (h : isOption word = false) (hn : n.signature.isGroup = true) (o : Output)
    (w : Workspace) : ends (readLine n (word :: rest)) o w = ((.ok ⟨[], word :: rest⟩, o), w) := by
  rw [readLine, read_group h hn, hn]
  rfl

theorem ends_readLine (h : isOption word = false) (hn : n.signature.isGroup = false)
    (hjson : readWord n.signature.options "--json" = .ok ⟨[⟨Name.json, none⟩], none⟩)
    (hargument : n.signature.arguments = [x])
    (hvalue : ∀ o w, ends (checkValue n ("'" ++ x.name ++ "'") word x.value) o w = ((.ok (), o), w)) (json : Bool)
    (o : Output) (w : Workspace) :
    ends (readLine n (jsonWords json ++ [word])) o w = ((.ok ⟨jsonGiven json, [word]⟩, o), w) := by
  have hargs : ends (checkArguments n [x] [word]) o w = ((.ok (), o), w) := ends_bind_ok (hvalue o w)
  rw [readLine, read_words h hn hjson, hn, hargument]
  cases json <;> exact ends_bind_ok hargs

section

variable (hstart : ends (start {} env) {} w.withoutLog = ((.ok c, o), w'))

include hstart

theorem ends_prepare {m : Name} (h : isOption word = false) (hm : Name.main.members.lookup word = some m) :
    ends (prepare (word :: rest) env) {} w.withoutLog =
      ends (match m with
        | .projects => do
          needsWords .projects rest
          let g ← readLine .projects rest
          let (m, rest) ← resolve .projects g.words
          return (c, ← readLine m rest, m)
        | m => do return (c, ← readLine m rest, m)) o w' := by
  have hresolve : resolve .main (word :: rest) = return (m, rest) := by
    rw [resolve, hm]
  have hstart' : ends (start ⟨[], word :: rest⟩ env) {} w.withoutLog = ((.ok c, o), w') := hstart
  rw [prepare]
  refine (ends_bind_ok (ends_readLine_group h rfl {} w.withoutLog)).trans ?_
  rw [hresolve]
  refine (ends_bind_ok hstart').trans ?_
  cases m <;> rfl

theorem prepared_validate (hfile : isOption file = false) (hnul : (Path.ofString file).hasNul = false) (json : Bool) :
    Prepared ("validate" :: (jsonWords json ++ [file])) env w c ⟨jsonGiven json, [file]⟩ .validate o w' := by
  have hvalue : ∀ o w, ends (checkValue .validate ("'" ++ Name.recipeFile.name ++ "'") file .path) o w =
      ((.ok (), o), w) := by
    intro o w
    rw [checkValue, checkPath, hnul]
    rfl
  rw [Prepared, ends_prepare hstart (isOption_eq_false (by decide)) rfl]
  exact ends_bind_ok (ends_readLine hfile rfl rfl rfl hvalue json o w')

theorem prepared_export (hid : isOption id = false) (json : Bool) :
    Prepared ("projects" :: "export" :: (jsonWords json ++ [id])) env w c ⟨jsonGiven json, [id]⟩ .export o w' := by
  rw [Prepared, ends_prepare hstart (isOption_eq_false (by decide)) rfl]
  refine (ends_bind_ok (ends_readLine_group (isOption_eq_false (by decide)) rfl o w')).trans ?_
  exact ends_bind_ok (ends_readLine hid rfl rfl rfl (fun _ _ => rfl) json o w')

end

theorem run_find_none {d : Disk} (hcwd : d.cwd = []) (hfile : d.Missing ⟨.root, [Configuration.fileName]⟩) :
    (Configuration.find? Configuration.here).run d = (.ok none, d) := by
  have hroot : (⟨.root, (d.absolute Configuration.here).names⟩ : Path) = ⟨.root, []⟩ := by
    rw [Disk.absolute, Disk.start, hcwd]
    rfl
  have hfind : (Configuration.searchFrom Configuration.searchLimit ⟨.root, []⟩).run d = (.ok none, d) := by
    rw [Configuration.searchLimit, Configuration.searchFrom]
    exact run_bind_ok (Disk.run_isFile_missing hfile)
  have hnul : Configuration.here.hasNul = false := rfl
  rw [Configuration.find?, hnul]
  refine (run_bind_ok (run_get d)).trans ?_
  rw [hroot, hfind]

theorem start_default (hcwd : w.disk.cwd = []) (hfile : w.withoutLog.disk.Missing ⟨.root, [Configuration.fileName]⟩) :
    ends (start {} []) {} w.withoutLog =
      ((.ok { quiet := false, debug := false, configuration := {} }, {}),
        { w.withoutLog with log := Log.setup "WARNING" none none true }) := by
  have hsearch : (Configuration.chosenFile none).run w.withoutLog = (.ok none, w.withoutLog) :=
    WorkM.run_onDisk_ok (run_find_none hcwd hfile)
  have hload : (Configuration.load none []).run w.withoutLog = (.ok {}, w.withoutLog) := by
    have hparts : Configuration.ofParts none [] [] = .ok {} := rfl
    rw [Configuration.load]
    refine (run_bind_ok hsearch).trans ((run_bind_ok (run_pure [] w.withoutLog)).trans ?_)
    dsimp only
    rw [hparts]
    rfl
  exact (ends_bind_ok (ends_work_ok hload)).trans rfl

end Provision.Command
