import Provision.Proofs.Script.Filters
import Provision.Proofs.Shell.Lists

/-!
# Commands behind a change of directory

A step that runs a command puts it in a subshell, behind a `cd` and `&&`. The text of the subshell is a list of
commands, if that of the step is one: the `cd` guards the first of its lists. So if the `cd` fails, then nothing else is
run exactly if the command of the step is one list that is joined by `&&` only (`guarded_command_iff`). With a `;`, a
`||` or several lines, commands of the step are run in a directory that is not theirs (`guarded_command_breaks`).
-/

namespace Provision

open Shell Shell.Scan Shell.Position

variable {s : Step} {type cmd cwd : String} {requires : List String} {cd : Shell.Command} {ls : List AndOr}

namespace Fragment

/-- The `cd` of a block that runs a command. -/
def changeDirectory (cwd : String) : String :=
  "cd " ++ doubleQuoted (if cwd = "" then "$SCRIPT_DIR" else cwd)

theorem text_runLines (type cmd cwd : String) (requires : List String) :
    (text ⟨type, runLines cmd cwd, requires⟩).toList =
      '(' :: ((changeDirectory cwd).toList ++ " && ".toList ++ cmd.toList ++ ['\n']) ++ [')'] := by
  have hscript : doubleQuoted "$SCRIPT_DIR" = "\"$SCRIPT_DIR\"" := by decide
  by_cases hcwd : cwd = ""
  · simp [text, runLines, changeDirectory, Line.text, Piece.text, hcwd, hscript]
  · simp [text, runLines, changeDirectory, Line.text, Piece.text, hcwd]

theorem ofStep_run (h : s.Has .runCmd [("cmd", cmd), ("cwd", cwd)]) :
    ofStep s = .ok ⟨s.type, runLines cmd cwd, Kind.runCmd.commands⟩ := by
  obtain ⟨S, hS⟩ := h.exists_read (by simp [Kind.settings])
  have hcmd : S.text "cmd" = cmd := h.text_eq hS (by simp) rfl
  have hcwd : S.text "cwd" = cwd := h.text_eq hS (by simp) rfl
  rw [h.ofStep hS, Action.ofSettings, hcmd, hcwd]
  rfl

theorem walk_changeDirectory (h : commands? (changeDirectory cwd).toList = some [⟨cd, []⟩]) :
    (plain between).walk (changeDirectory cwd).toList = some (plain bare, texts (changeDirectory cwd).toList) := by
  have hstart : (plain between).walk "cd ".toList = some (plain between, texts "cd ".toList) := by decide
  rw [commands?, Option.bind_eq_some_iff] at h
  obtain ⟨⟨m, ps⟩, hwalk, -⟩ := h
  rw [changeDirectory, String.toList_append] at hwalk ⊢
  obtain ⟨m₁, qs, qs', hcd, hdir, rfl⟩ := walk_append_eq_some hwalk
  obtain ⟨rfl, rfl⟩ := Prod.mk.inj (Option.some.inj (hstart.symm.trans hcd))
  obtain ⟨hbare, hbehind⟩ := walk_doubleQuoted hdir
  rw [hwalk, texts_append, hbare, hbehind]

theorem commands_changeDirectory (hne : cwd ≠ "") (hcwd : ∀ c ∈ cwd.toList, c ≠ '$') :
    commands? (changeDirectory cwd).toList = some [⟨[.word (.plain "cd"), .word (.plain cwd)], []⟩] := by
  have hstart : (plain between).walk "cd ".toList = some (plain between, texts "cd ".toList) := by decide
  have hwalk : (plain between).walk (changeDirectory cwd).toList =
      some (plain bare, texts (changeDirectory cwd).toList) := by
    rw [changeDirectory, if_neg hne, String.toList_append, walk_append, hstart, Option.bind_some,
      walk_doubleQuoted_plain hcwd, texts_append]
    rfl
  have hplain : cwd.toList.any (· = '$') = false := by
    simpa using hcwd
  have htokens : tokensFrom between (changeDirectory cwd).toList =
      some [.word (.plain "cd"), .word (.plain cwd)] := by
    have hcd : tokensFrom between ("cd ".toList ++ (doubleQuoted cwd).toList) =
        (tokensFrom between (doubleQuoted cwd).toList).map (.word (.plain "cd") :: ·) := by
      rw [tokensFrom_append]
      rfl
    have hdir := tokensFrom_double (.inl rfl) cwd []
    rw [List.append_nil, hplain] at hdir
    rw [changeDirectory, if_neg hne, String.toList_append, hcd, hdir]
    simp [tokensFrom, finish?, prepend, Word.plain]
  have hsplit : split (texts (changeDirectory cwd).toList) = ((changeDirectory cwd).toList, []) := by
    simpa [split] using split_texts (changeDirectory cwd).toList []
  rw [commands?, hwalk, Option.bind_some, hsplit]
  simp only [ends, if_true, gather, htokens, Option.bind_some]
  rfl

end Fragment

/-- The text of a step that runs a command is a list of commands in a subshell, if the `cd` and its own command can be
read. If the `cd` fails, then it is the only command that is run exactly if the command of the step is one list that is
joined by `&&` only. -/
theorem guarded_command_iff (h : s.Has .runCmd [("cmd", cmd), ("cwd", cwd)])
    (hcd : commands? (Fragment.changeDirectory cwd).toList = some [⟨cd, []⟩])
    (hcmd : commands? cmd.toList = some ls) (hne : ls ≠ []) :
    ∃ f body, Fragment.ofStep s = .ok f ∧ f.text.toList = '(' :: body ++ [')'] ∧
      commands? body = some (behindCommand cd ls) ∧
      ∀ ok : Outcomes, ok [] cd = false →
        (runList ok [] (behindCommand cd ls) = [cd] ↔ ∃ l, ls = [l] ∧ ∀ x ∈ l.rest, x.1 = .and) :=
  ⟨_, _, Fragment.ofStep_run h, Fragment.text_runLines ..,
    commands_behind (Fragment.walk_changeDirectory hcd) hcd hcmd hne, fun _ hfailed => runList_behind hfailed hne⟩

/-- A step that runs a command in a directory. -/
def runStep (cmd : String) : Step :=
  { id := "s", name := "n", type := "run_cmd", config := [("cmd", .str cmd), ("cwd", .str "/opt/app")] }

theorem has_runStep (cmd : String) : (runStep cmd).Has .runCmd [("cmd", cmd), ("cwd", "/opt/app")] := by
  refine ⟨rfl, fun x hx => ?_⟩
  simp only [List.mem_cons, List.not_mem_nil, or_false] at hx
  rcases hx with rfl | rfl <;> rfl

/-- The change to the directory of the step. -/
def runStepCd : Shell.Command :=
  [.word (.plain "cd"), .word (.plain "/opt/app")]

theorem commands_runStepCd : commands? (Fragment.changeDirectory "/opt/app").toList = some [⟨runStepCd, []⟩] :=
  Fragment.commands_changeDirectory (by decide) (by simp)

theorem guarded_command_iff_make :
    ∃ f body ls, Fragment.ofStep (runStep "make && make install") = .ok f ∧ f.text.toList = '(' :: body ++ [')'] ∧
      commands? body = some (behindCommand runStepCd ls) ∧
      ∀ ok : Outcomes, ok [] runStepCd = false → runList ok [] (behindCommand runStepCd ls) = [runStepCd] := by
  have hcmd : commands? "make && make install".toList = some [⟨[.word (.plain "make")],
      [(.and, [.word (.plain "make"), .word (.plain "install")])]⟩] := by decide
  obtain ⟨f, body, hf, htext, hbody, hrun⟩ :=
    guarded_command_iff (has_runStep "make && make install") commands_runStepCd hcmd (by decide)
  exact ⟨f, body, _, hf, htext, hbody, fun ok hfailed => (hrun ok hfailed).2 ⟨_, rfl, by decide⟩⟩

/-- Nothing is wrong with a list of two commands, and the second is run where the directory does not exist. -/
theorem guarded_command_breaks :
    ∃ f body ls, Check.step (runStep "./stop.sh; rm -rf data") = .ok [] ∧
      Fragment.ofStep (runStep "./stop.sh; rm -rf data") = .ok f ∧ f.text.toList = '(' :: body ++ [')'] ∧
      commands? body = some ls ∧
      runList (fun _ c => c ≠ runStepCd) [] ls =
        [runStepCd, [.word (.plain "rm"), .word (.plain "-rf"), .word (.plain "data")]] := by
  have hcmd : commands? "./stop.sh; rm -rf data".toList = some [⟨[.word (.plain "./stop.sh")], []⟩,
      ⟨[.word (.plain "rm"), .word (.plain "-rf"), .word (.plain "data")], []⟩] := by decide
  have hbody := commands_behind (Fragment.walk_changeDirectory commands_runStepCd) commands_runStepCd hcmd (by decide)
  refine ⟨_, _, _, rfl, Fragment.ofStep_run (has_runStep _), Fragment.text_runLines .., hbody, ?_⟩
  decide

end Provision
