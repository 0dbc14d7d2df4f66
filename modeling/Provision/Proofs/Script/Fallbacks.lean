import Provision.Proofs.Script.Preflight
import Provision.Proofs.Shell.Choices

/-!
# Blocks that do without a command

The block of a service is read from its text as a tree of commands and choices (`Fragment.reads_systemd`,
`Fragment.reads_sysv`, `Fragment.reads_auto`), for all values in it. In it stands a choice by the command that a step of
the kind asks for, so the block does without this command (`Fragment.exists_chooses`). But the tests before the first
step ask for it as well. Where all other commands are available, a script therefore gets to its first step exactly if
none of these choices is needed (`Installer.fallback_reached_iff`).
-/

namespace Provision

open Shell Shell.Piece

variable {r : Recipe} {s : Step} {steps : List Step} {f : Fragment} {fs : List (Step × Fragment)} {t : Moment}
  {needed : List String} {script c : String} {available : String → Bool}

/-- The command that the block of a kind looks for, to go on without it. -/
def Kind.fallback? : Kind → Option String
  | serviceSysv => some "chkconfig"
  | autoService => some "systemctl"
  | _ => none

/-- The step's own block does without the command. -/
def Step.FallsBack (s : Step) (c : String) : Prop :=
  s.kind?.bind Kind.fallback? = some c

instance : Decidable (s.FallsBack c) :=
  inferInstanceAs (Decidable (_ = _))

/-- Every step has the commands that are inferred from its type, but for one that its own block does without. So what
another step needs in any case is there. -/
def Copes (available : String → Bool) (steps : List Step) : Prop :=
  ∀ s ∈ steps, ∀ c ∈ Preflight.commandsFor s.type, available c = true ∨ s.FallsBack c

instance : Decidable (Copes available steps) :=
  inferInstanceAs (Decidable (∀ s ∈ steps, ∀ c ∈ Preflight.commandsFor s.type, _))

theorem Step.FallsBack.mem_commandsFor (h : s.FallsBack c) : c ∈ Preflight.commandsFor s.type := by
  obtain ⟨k, hk, hc⟩ := Option.bind_eq_some_iff.1 h
  rw [Step.kind?] at hk
  rw [Preflight.commandsFor, hk, Option.map_some, Option.getD_some]
  cases k <;> cases hc <;> exact List.mem_singleton.2 rfl

namespace Fragment

def systemdBlock (src name : String) (start : Bool) : Block :=
  .runs ((systemdService src name start).map Line.words) .done

/-- Enters a script of init in its runlevels. -/
def enlist (name : String) : Block :=
  .runs [Line.words [code "chkconfig --add ", double name], Line.words [code "chkconfig ", double name, code " on"]]
    .done

def warn : Block :=
  .run (Line.words [code "echo \"chkconfig not found; ensure service enabled manually\" >&2"]) .done

def launch (name : String) (start : Bool) : Block :=
  if start then .run (Line.words [code "service ", double name, code " start"]) .done else .done

def sysvBlock (src name : String) (start : Bool) : Block :=
  let script := double ("/etc/init.d/" ++ name)
  .runs [Line.words [code "cp ", double src, code " ", script], Line.words [code "chmod +x ", script]]
    (.choice "chkconfig" (enlist name) warn (launch name start))

def autoBlock (name sysvSrc systemdSrc : String) (start : Bool) : Block :=
  .choice "systemctl" (systemdBlock systemdSrc name start) (sysvBlock sysvSrc name start) .done

theorem reads_systemd (src name : String) (start : Bool) :
    List.Forall₂ Line.Reads (systemdService src name start) (systemdBlock src name start).clauses := by
  have hcopy : Line.Reads [code "cp ", double src, code " ", double ("/etc/systemd/system/" ++ unitName name)] _ :=
    .run rfl rfl rfl
  have hreload : Line.Reads [code "systemctl daemon-reload"] _ := .run rfl rfl rfl
  cases start with
  | false => exact .cons hcopy (.cons hreload .nil)
  | true => exact .cons hcopy (.cons hreload (.cons (.run rfl rfl rfl) .nil))

theorem reads_sysv (src name : String) (start : Bool) :
    List.Forall₂ Line.Reads (sysvService src name start) (sysvBlock src name start).clauses := by
  have hprobe : Line.Reads [code "if command -v chkconfig >/dev/null 2>&1; then"] (.ifFound "chkconfig") :=
    ⟨rfl, rfl⟩
  have hadd : Line.Reads [code "chkconfig --add ", double name] _ := .run rfl rfl rfl
  have hon : Line.Reads [code "chkconfig ", double name, code " on"] _ := .run rfl rfl rfl
  have henlist : List.Forall₂ Line.Reads
      [[code "  chkconfig --add ", double name], [code "  chkconfig ", double name, code " on"]]
      (enlist name).clauses := .cons hadd.indented (.cons hon.indented .nil)
  have hwarn : List.Forall₂ Line.Reads
      [[code "  echo \"chkconfig not found; ensure service enabled manually\" >&2"]] warn.clauses :=
    .cons (by decide +kernel) .nil
  have hlaunch : List.Forall₂ Line.Reads (if start then [[code "service ", double name, code " start"]] else [])
      (launch name start).clauses := by
    cases start with
    | false => exact .nil
    | true => exact .cons (.run rfl rfl rfl) .nil
  exact .cons (.run rfl rfl rfl) (.cons (.run rfl rfl rfl) (Block.reads_choice hprobe henlist hwarn hlaunch))

theorem reads_auto (name sysvSrc systemdSrc : String) (start : Bool) :
    List.Forall₂ Line.Reads (autoServiceLines name sysvSrc systemdSrc start)
      (autoBlock name sysvSrc systemdSrc start).clauses := by
  have hprobe : Line.Reads [code "if command -v systemctl >/dev/null 2>&1; then"] (.ifFound "systemctl") :=
    ⟨rfl, rfl⟩
  have hchoice : List.Forall₂ Line.Reads _ (autoBlock name sysvSrc systemdSrc start).clauses :=
    Block.reads_choice hprobe (forall₂_indented (reads_systemd systemdSrc name start))
      (forall₂_indented (reads_sysv sysvSrc name start)) .nil
  simpa [autoServiceLines] using hchoice

/-! ### Choices in blocks -/

/-- The text of the block has a choice by the command, with the commands `before` it and the block `behind` it. The two
parts of the choice run different commands. -/
structure Chooses (f : Fragment) (c : String) (before : List Command) (found missing behind : Block) : Prop where
  text : clauses? f.text = some (Block.runs before (.choice c found missing behind)).clauses
  ran_ne : ∀ available, found.ran available ≠ missing.ran available

theorem chooses_sysv (type src name : String) (start : Bool) (requires : List String) :
    Chooses ⟨type, sysvService src name start, requires⟩ "chkconfig"
      [Line.words [code "cp ", double src, code " ", double ("/etc/init.d/" ++ name)],
        Line.words [code "chmod +x ", double ("/etc/init.d/" ++ name)]]
      (enlist name) warn (launch name start) where
  text := clauses?_lines (reads_sysv src name start) (by simp [sysvService])
  ran_ne available h := by
    have hlength : 2 = 1 := congrArg List.length h
    cases hlength

theorem chooses_auto (type name sysvSrc systemdSrc : String) (start : Bool) (requires : List String) :
    Chooses ⟨type, autoServiceLines name sysvSrc systemdSrc start, requires⟩ "systemctl" []
      (systemdBlock systemdSrc name start) (sysvBlock sysvSrc name start) .done where
  text := clauses?_lines (reads_auto name sysvSrc systemdSrc start) (by simp [autoServiceLines])
  ran_ne available h := by
    -- Behind the copy, the one reloads the service manager and the other changes a mode.
    have hsystemd : ((systemdBlock systemdSrc name start).ran available)[1]?.bind List.head? =
        some (.word (.plain "systemctl")) := rfl
    have hsysv : ((sysvBlock sysvSrc name start).ran available)[1]?.bind List.head? =
        some (.word (.plain "chmod")) := rfl
    rw [h, hsysv] at hsystemd
    exact absurd hsystemd (by decide)

theorem exists_chooses (h : ofStep s = .ok f) (hs : s.FallsBack c) :
    ∃ before found missing behind, f.Chooses c before found missing behind := by
  obtain ⟨k, hk, hc⟩ := Option.bind_eq_some_iff.1 hs
  simp only [ofStep, hk, Except.map_eq_ok, Action.read] at h
  obtain ⟨_, ⟨S, -, rfl⟩, rfl⟩ := h
  cases k <;> cases hc
  case serviceSysv => exact ⟨_, _, _, _, chooses_sysv ..⟩
  case autoService => exact ⟨_, _, _, _, chooses_auto ..⟩

end Fragment

namespace Preflight

theorem isCommand_of_required (h : c ∈ requiredCommands steps) : IsCommand c := by
  obtain ⟨s, -, hc⟩ := mem_requiredCommands.1 h
  exact isCommand_of_mem hc

/-- On a machine that copes with the steps, the tests find all commands exactly if no block has to do without one. -/
theorem all_required_iff (h : Copes available steps) : (requiredCommands steps).all available = true ↔
    ∀ s ∈ steps, ∀ c, s.FallsBack c → available c = true := by
  rw [List.all_eq_true]
  constructor
  · intro hall s hs c hc
    exact hall c (mem_requiredCommands.2 ⟨s, hs, hc.mem_commandsFor⟩)
  · intro hall c hc
    obtain ⟨s, hs, hc⟩ := mem_requiredCommands.1 hc
    rcases h s hs c hc with havailable | hfallsBack
    · exact havailable
    · exact hall s hs c hfallsBack

theorem status_verdict_eq_none : (verdict available needed).status = none ↔ needed.all available = true := by
  rw [verdict]
  split <;> simp_all

end Preflight

namespace Installer

theorem ofStep_of_mem (h : fragments steps = .ok fs) {p : Step × Fragment} (hp : p ∈ fs) :
    p.1 ∈ steps ∧ Fragment.ofStep p.1 = .ok p.2 := by
  induction steps generalizing fs with
  | nil =>
    cases h
    cases hp
  | cons s steps ih =>
    obtain ⟨f, fs, hf, hfs, rfl⟩ := fragments_cons.1 h
    rcases List.mem_cons.1 hp with rfl | hp
    · exact ⟨List.mem_cons_self, hf⟩
    · obtain ⟨hmem, hstep⟩ := ih hfs hp
      exact ⟨List.mem_cons_of_mem _ hmem, hstep⟩

/-- On a machine that copes with the steps, a script gets behind its tests exactly if no block has to do without a
command: each block that could do so has a choice by it, and runs the part for a machine that has the command. -/
theorem fallback_reached_iff (h : Installer.script r t = .ok script) (hcopes : Copes available r.steps) :
    ∃ fs instructions, fragments r.steps = .ok fs ∧
      script = opening r t ++ Preflight.block (Preflight.requiredCommands r.steps) ++ "\n" ++ closing fs ∧
      program? (Preflight.block (Preflight.requiredCommands r.steps)) = some instructions ∧
      ((Machine.run available {} instructions).status = none ↔
        ∀ s ∈ r.steps, ∀ c, s.FallsBack c → available c = true) ∧
      ∀ p ∈ fs, ∀ c, p.1.FallsBack c → ∃ before found missing behind, p.2.Chooses c before found missing behind ∧
        ((Machine.run available {} instructions).status = none →
          (Block.runs before (.choice c found missing behind)).ran available =
            before ++ (found.ran available ++ behind.ran available)) := by
  obtain ⟨fs, hfs, hscript⟩ := script_eq_ok h
  have hpasses : (Machine.run available {} (Preflight.instructions (Preflight.requiredCommands r.steps) ++
      [.nothing])).status = none ↔ ∀ s ∈ r.steps, ∀ c, s.FallsBack c → available c = true := by
    rw [Preflight.run_block, Preflight.status_verdict_eq_none, Preflight.all_required_iff hcopes]
  refine ⟨fs, _, hfs, hscript, Preflight.program?_block fun _ => Preflight.isCommand_of_required, hpasses,
    fun p hp c hc => ?_⟩
  obtain ⟨hmem, hstep⟩ := ofStep_of_mem hfs hp
  obtain ⟨before, found, missing, behind, hchooses⟩ := Fragment.exists_chooses hstep hc
  refine ⟨before, found, missing, behind, hchooses, fun hstatus => ?_⟩
  rw [Block.ran_runs, Block.ran, if_pos (hpasses.1 hstatus p.1 hmem c hc)]

/-- A service under the control of whichever the machine has. -/
def serviceStep : Step :=
  { type := "auto_service",
    config := [("name", .str "app"), ("sysv_src", .str "app.init"), ("systemd_src", .str "app.service")] }

/-- A recipe with this step, and one for a script of init. -/
def serviceRecipe : Recipe :=
  { Recipe.starter "p" "demo" .epoch with
    steps := [serviceStep, { type := "service_sysv", config := [("name", .str "app"), ("src", .str "app.init")] }] }

theorem requiredCommands_serviceRecipe :
    Preflight.requiredCommands serviceRecipe.steps = ["chkconfig", "systemctl"] := by
  have hperm : ["systemctl", "chkconfig"].Perm ["chkconfig", "systemctl"] := by decide
  exact Preflight.sortedSet_eq (by decide) fun c => hperm.mem_iff

theorem fallback_reached_iff_init : Copes (· != "systemctl") serviceRecipe.steps ∧
    ∃ instructions, program? (Preflight.block (Preflight.requiredCommands serviceRecipe.steps)) = some instructions ∧
      ((Machine.run (· != "systemctl") {} instructions).status = none ↔
        ∀ s ∈ serviceRecipe.steps, ∀ c, s.FallsBack c → (c != "systemctl") = true) := by
  have hscript : Installer.script serviceRecipe (.ofTimestamp .epoch) =
      .ok (assemble serviceRecipe (.ofTimestamp .epoch) _) := rfl
  have hcopes : Copes (· != "systemctl") serviceRecipe.steps := by decide
  obtain ⟨-, instructions, -, -, hprogram, hstatus, -⟩ := fallback_reached_iff hscript hcopes
  exact ⟨hcopes, instructions, hprogram, hstatus⟩

/-- The machine has all commands but one, and the step that asks for this does without it. Nevertheless the script stops
before this step. -/
theorem fallback_not_reached : Copes (· != "systemctl") serviceRecipe.steps ∧
    (∃ f found missing, Fragment.ofStep serviceStep = .ok f ∧ f.Chooses "systemctl" [] found missing .done) ∧
    ∃ instructions, program? (Preflight.block (Preflight.requiredCommands serviceRecipe.steps)) = some instructions ∧
      (Machine.run (· != "systemctl") {} instructions).told = ["Missing required commands: systemctl"] ∧
      (Machine.run (· != "systemctl") {} instructions).status = some 1 := by
  have hcommands : ∀ c ∈ Preflight.requiredCommands serviceRecipe.steps, IsCommand c :=
    fun _ => Preflight.isCommand_of_required
  have hstep : Fragment.ofStep serviceStep =
      .ok ⟨"auto_service", Fragment.autoServiceLines "app" "app.init" "app.service" true, ["systemctl"]⟩ := rfl
  refine ⟨by decide, ⟨_, _, _, hstep, Fragment.chooses_auto ..⟩, _, Preflight.program?_block hcommands, ?_⟩
  rw [Preflight.run_block, requiredCommands_serviceRecipe]
  exact ⟨rfl, rfl⟩

end Installer

end Provision
