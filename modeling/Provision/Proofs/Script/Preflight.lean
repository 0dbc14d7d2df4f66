import Provision.Proofs.Script.Confinement
import Provision.Proofs.Script.Definitions
import Provision.Proofs.Shell.Probing

/-!
# The commands that a script needs

The commands that are inferred from the types of the steps (`Preflight.requiredCommands`) rise, each stands once, and
the set of types decides them (`Preflight.requiredCommands_congr`). The blocks of the steps ask for the same ones
(`Installer.commands_eq_required`). A script looks for them before its first step: what it does on a machine with any
set of commands is executed from the text of its block (`Preflight.run_block`), and is that it stops with the list of
the missing ones if there are any (`Installer.preflight_agrees`).
-/

namespace Provision

open Shell

variable {r : Recipe} {steps steps' : List Step} {fs : List (Step × Fragment)} {t : Moment} {script : String}
  {xs ys needed : List String} {c : String}

namespace Preflight

theorem pairwise_eraseDups (h : xs.Pairwise (· ≤ ·)) : xs.eraseDups.Pairwise (· < ·) := by
  induction hn : xs.length using Nat.strongRecOn generalizing xs with
  | ind n ih =>
    cases xs with
    | nil => exact .nil
    | cons x xs =>
      obtain ⟨hx, hxs⟩ := List.pairwise_cons.1 h
      have hlen : (xs.filter fun y => !y == x).length < n :=
        hn ▸ Nat.lt_succ_of_le (List.length_filter_le _ xs)
      rw [List.eraseDups_cons, List.pairwise_cons]
      refine ⟨fun y hy => ?_, ih _ hlen (hxs.filter _) rfl⟩
      obtain ⟨hmem, hne⟩ := List.mem_filter.1 (List.mem_eraseDups.1 hy)
      refine Decidable.not_not.1 fun hlt => ?_
      rw [String.le_antisymm (hx y hmem) (String.not_lt.1 hlt)] at hne
      simp at hne

theorem pairwise_sortedSet (xs : List String) : (sortedSet xs).Pairwise (· < ·) := by
  have htrans : ∀ a b c : String, decide (a ≤ b) = true → decide (b ≤ c) = true → decide (a ≤ c) = true := by
    simpa using fun a b c => String.le_trans
  have htotal : ∀ a b : String, (decide (a ≤ b) || decide (b ≤ a)) = true := fun a b => by
    simpa using String.le_total a b
  exact pairwise_eraseDups ((List.pairwise_mergeSort htrans htotal xs).imp of_decide_eq_true)

theorem mem_sortedSet : c ∈ sortedSet xs ↔ c ∈ xs := by
  rw [sortedSet, List.mem_eraseDups, List.mem_mergeSort]

theorem sortedSet_eq (hrising : ys.Pairwise (· < ·)) (h : ∀ c, c ∈ xs ↔ c ∈ ys) : sortedSet xs = ys := by
  have hperm : (sortedSet xs).Perm ys := by
    refine (List.perm_ext_iff_of_nodup ((pairwise_sortedSet xs).imp String.ne_of_lt)
      (hrising.imp String.ne_of_lt)).2 fun c => ?_
    rw [mem_sortedSet, h]
  exact hperm.eq_of_pairwise (fun a b _ _ hab hba => absurd hab (String.lt_asymm hba)) (pairwise_sortedSet xs) hrising

theorem sortedSet_congr (h : ∀ c, c ∈ xs ↔ c ∈ ys) : sortedSet xs = sortedSet ys :=
  sortedSet_eq (pairwise_sortedSet ys) fun c => by rw [mem_sortedSet, h]

theorem mem_requiredCommands : c ∈ requiredCommands steps ↔ ∃ s ∈ steps, c ∈ commandsFor s.type := by
  rw [requiredCommands, mem_sortedSet, List.mem_flatMap]

theorem requiredCommands_congr (h : ∀ type, (∃ s ∈ steps, s.type = type) ↔ ∃ s ∈ steps', s.type = type) :
    requiredCommands steps = requiredCommands steps' := by
  refine sortedSet_congr fun c => ?_
  have hone : ∀ {l l' : List Step}, (∀ type, (∃ s ∈ l, s.type = type) → ∃ s ∈ l', s.type = type) →
      c ∈ l.flatMap (fun s => commandsFor s.type) → c ∈ l'.flatMap fun s => commandsFor s.type := by
    intro l l' hl hc
    obtain ⟨s, hs, hc⟩ := List.mem_flatMap.1 hc
    obtain ⟨s', hs', htype⟩ := hl s.type ⟨s, hs, rfl⟩
    exact List.mem_flatMap.2 ⟨s', hs', htype ▸ hc⟩
  exact ⟨hone fun type => (h type).1, hone fun type => (h type).2⟩

theorem isCommand_of_mem {type : String} (h : c ∈ commandsFor type) : IsCommand c := by
  have hall : ∀ k : Kind, (k.commands.all fun c => c.toList.all isPlain && c != "") = true := by
    intro k
    cases k <;> decide
  rw [commandsFor] at h
  cases hk : Kind.ofName? type with
  | none =>
    rw [hk] at h
    cases h
  | some k =>
    rw [hk] at h
    have hc := List.all_eq_true.1 (hall k) c h
    rw [Bool.and_eq_true, List.all_eq_true, bne_iff_ne] at hc
    exact ⟨hc.1, hc.2⟩

/-- The commands of the block. -/
def instructions (commands : List String) : List Instruction :=
  [.nothing, .clear] ++ commands.flatMap (fun c => [.unlessFound c, .gather c, .fi]) ++
    [.ifGathered, .tell "Missing required commands: ", .exit 1, .fi]

theorem forall₂_test (h : IsCommand c) : List.Forall₂ IsLine (test c) [.unlessFound c, .gather c, .fi] :=
  .cons (isLine_unlessFound h) (.cons (isLine_gather h) (.cons (by decide) .nil))

theorem program?_block (h : ∀ c ∈ needed, IsCommand c) :
    program? (block needed) = some (instructions needed ++ [.nothing]) := by
  have htests : List.Forall₂ IsLine (needed.flatMap test)
      (needed.flatMap fun c => [.unlessFound c, .gather c, .fi]) := by
    induction needed with
    | nil => exact .nil
    | cons c needed ih =>
      obtain ⟨hc, hneeded⟩ := List.forall_mem_cons.1 h
      exact List.rel_append (forall₂_test hc) (ih hneeded)
  have hfirst : List.Forall₂ IsLine ["# Preflight checks", "missing=()"] [.nothing, .clear] := by
    refine .cons ?_ (.cons ?_ .nil) <;> decide
  have hlast : List.Forall₂ IsLine ["if [ $\x7b#missing[@]\x7d -ne 0 ]; then",
      "  echo \"Missing required commands: $\x7bmissing[*]\x7d\" >&2", "  exit 1", "fi"]
      [.ifGathered, .tell "Missing required commands: ", .exit 1, .fi] := by
    refine .cons ?_ (.cons ?_ (.cons ?_ (.cons ?_ .nil))) <;> decide
  exact program?_lines (List.rel_append (List.rel_append hfirst htests) hlast) (by simp)

theorem run_test (available : String → Bool) (tested gathered told : List String) (c : String) :
    Machine.run available ⟨tested, gathered, told, none, 0⟩ [.unlessFound c, .gather c, .fi] =
      ⟨tested ++ [c], gathered ++ [c].filter (!available ·), told, none, 0⟩ := by
  cases h : available c <;> simp [Machine.run, Machine.step, Machine.execute, Machine.pass, h]

/-- So each command is looked for, and those that are not available are gathered in the same order. -/
theorem run_tests (available : String → Bool) (tested gathered told needed : List String) :
    Machine.run available ⟨tested, gathered, told, none, 0⟩
        (needed.flatMap fun c => [.unlessFound c, .gather c, .fi]) =
      ⟨tested ++ needed, gathered ++ needed.filter (!available ·), told, none, 0⟩ := by
  induction needed generalizing tested gathered with
  | nil => simp [Machine.run]
  | cons c needed ih =>
    rw [List.flatMap_cons, Machine.run_append, run_test, ih, List.append_assoc, List.append_assoc,
      ← List.filter_append]
    rfl

/-- The machine behind the block. -/
def verdict (available : String → Bool) (needed : List String) : Machine where
  tested := needed
  gathered := needed.filter (!available ·)
  told :=
    if needed.all available then []
    else ["Missing required commands: " ++ " ".intercalate (needed.filter (!available ·))]
  status := if needed.all available then none else some 1

theorem run_block (available : String → Bool) (needed : List String) :
    Machine.run available {} (instructions needed ++ [.nothing]) = verdict available needed := by
  have hall : needed.filter (!available ·) = [] ↔ needed.all available = true := by simp
  have hfirst : Machine.run available {} [.nothing, .clear] = {} := rfl
  rw [instructions, Machine.run_append, Machine.run_append, Machine.run_append, hfirst, run_tests, verdict]
  by_cases h : needed.all available = true
  · rw [hall.2 h, if_pos h, if_pos h]
    rfl
  · rw [if_neg h, if_neg h]
    have hmissing := mt hall.1 h
    simp [Machine.run, Machine.step, Machine.execute, hmissing]

end Preflight

namespace Installer

/-! ### The blocks of the steps -/

theorem requires_of_ofStep {s : Step} {f : Fragment} (h : Fragment.ofStep s = .ok f) :
    f.requires = Preflight.commandsFor s.type := by
  rw [Preflight.commandsFor]
  cases hk : s.kind? with
  | none =>
    rw [Fragment.ofStep_of_unknown hk] at h
    cases h
    rw [Step.kind?] at hk
    rw [hk]
    rfl
  | some k =>
    simp only [Fragment.ofStep, hk, Except.map_eq_ok] at h
    obtain ⟨a, -, rfl⟩ := h
    rw [Step.kind?] at hk
    rw [hk]
    rfl

theorem commands_eq_required (h : fragments steps = .ok fs) : commands fs = Preflight.requiredCommands steps := by
  rw [commands, Preflight.requiredCommands]
  congr 1
  induction steps generalizing fs with
  | nil =>
    cases h
    rfl
  | cons s steps ih =>
    obtain ⟨f, fs, hf, hfs, rfl⟩ := fragments_cons.1 h
    rw [List.flatMap_cons, List.flatMap_cons, ih hfs, requires_of_ofStep hf]

/-- What stands in a script before the tests. -/
def opening (r : Recipe) (t : Moment) : String :=
  "\n".intercalate [preamble, varsSection r.vars, logging, "echo " ++ singleQuoted (bannerText r t) ++ "\n",
    rootCheck] ++ "\n"

/-- What stands behind the tests, from the first step on. -/
def closing (fs : List (Step × Fragment)) : String :=
  "\n".intercalate (("total=" ++ number fs.length ++ "\n") :: stepSections fs.length 1 fs ++ [summary])

theorem length_fragments (h : fragments steps = .ok fs) : fs.length = steps.length := by
  induction steps generalizing fs with
  | nil =>
    cases h
    rfl
  | cons s steps ih =>
    obtain ⟨f, fs, -, hfs, rfl⟩ := fragments_cons.1 h
    rw [List.length_cons, List.length_cons, ih hfs]

theorem script_eq_ok (h : Installer.script r t = .ok script) : ∃ fs, fragments r.steps = .ok fs ∧
    script = opening r t ++ Preflight.block (Preflight.requiredCommands r.steps) ++ "\n" ++ closing fs := by
  obtain ⟨fs, hfs, rfl⟩ := Except.map_eq_ok.1 h
  refine ⟨fs, hfs, ?_⟩
  rw [← commands_eq_required hfs, assemble, ← length_fragments hfs, opening, closing]
  simp only [List.cons_append, List.nil_append]
  simp [String.intercalate_cons_of_ne_nil, String.append_assoc]

theorem hasNoQuotes_of_isName {name : String} (h : isName name = true) : HasNoQuotes name := by
  rcases isName_iff.1 h with h | ⟨s, hs, rfl⟩
  · exact hasNoQuotes_identifier h
  · exact (hasNoQuotes_identifier hs).append (by simp [HasNoQuotes])

theorem sameOutside_varsSection (vars : List (String × String)) :
    SameOutside (varsSection vars) (varsSection vars) := by
  have hlines : ∀ vs : List (String × String), (∀ v ∈ vs, isName v.1 = true) →
      List.Forall₂ SameOutside (vs.flatMap fun v => assignment v.1 v.2) (vs.flatMap fun v => assignment v.1 v.2) := by
    intro vs hvs
    induction vs with
    | nil => exact .nil
    | cons v vs ih =>
      obtain ⟨hv, hvs⟩ := List.forall_mem_cons.1 hvs
      exact List.rel_append (sameOutside_assignment _ _ (hasNoQuotes_of_isName hv)) (ih hvs)
  rw [varsSection_eq, assignments]
  exact .append (.intercalate (hlines _ fun v hv => (List.mem_filter.1 hv).2)) sameOutside_newline

theorem after_opening (r : Recipe) (t : Moment) : Quote.outside.after (opening r t).toList = .outside := by
  have hopening : SameOutside (opening r t) (opening r t) := by
    refine .append (.intercalate ?_) sameOutside_newline
    refine .cons ?preamble (.cons (sameOutside_varsSection r.vars) (.cons ?logging (.cons ?banner
      (.cons ?rootCheck .nil))))
    case preamble => exact .append (.literal (by decide)) (.literal (by decide))
    case logging => exact .append (.literal (by decide)) (.literal (by decide))
    case banner => exact (SameOutside.append (.literal (by decide)) (.single _ _)).append sameOutside_newline
    case rootCheck => exact .append (.literal (by decide)) (.literal (by decide))
  obtain ⟨b, ⟨hafter, -⟩, -⟩ := hopening
  exact hafter

/-- A script tests for the commands that are inferred from the types of the steps, before the first step. On every
machine it looks for all of these in their order, and it stops exactly if one of them is missing, with a list of the
missing ones in the same order. -/
theorem preflight_agrees (h : Installer.script r t = .ok script) :
    (∃ fs, fragments r.steps = .ok fs ∧ script =
      opening { r with steps := [] } t ++ Preflight.block (Preflight.requiredCommands r.steps) ++ "\n" ++ closing fs) ∧
    Quote.outside.after (opening { r with steps := [] } t).toList = .outside ∧
    (Preflight.requiredCommands r.steps).Pairwise (· < ·) ∧
    (∀ c, c ∈ Preflight.requiredCommands r.steps ↔ ∃ s ∈ r.steps, c ∈ Preflight.commandsFor s.type) ∧
    (∀ steps : List Step, (∀ type, (∃ s ∈ steps, s.type = type) ↔ ∃ s ∈ r.steps, s.type = type) →
      Preflight.requiredCommands steps = Preflight.requiredCommands r.steps) ∧
    ∃ instructions, program? (Preflight.block (Preflight.requiredCommands r.steps)) = some instructions ∧
      ∀ available, Machine.run available {} instructions =
        Preflight.verdict available (Preflight.requiredCommands r.steps) := by
  obtain ⟨fs, hfs, hscript⟩ := script_eq_ok h
  have hcommands : ∀ c ∈ Preflight.requiredCommands r.steps, IsCommand c := fun c hc => by
    obtain ⟨s, -, hc⟩ := Preflight.mem_requiredCommands.1 hc
    exact Preflight.isCommand_of_mem hc
  exact ⟨⟨fs, hfs, hscript⟩, after_opening _ t, Preflight.pairwise_sortedSet _,
    fun _ => Preflight.mem_requiredCommands, fun _ => Preflight.requiredCommands_congr, _,
    Preflight.program?_block hcommands, fun available => Preflight.run_block available _⟩

/-- A recipe with two steps that need commands, and one of an unknown type. -/
def unpackingRecipe : Recipe :=
  { Recipe.starter "p" "demo" .epoch with
    steps := [{ type := "extract_zip" }, { type := "delete_lines" }, { type := "zip" }] }

theorem preflight_agrees_unpacking : ∃ script, Installer.script unpackingRecipe (.ofTimestamp .epoch) = .ok script ∧
    (∃ fs, fragments unpackingRecipe.steps = .ok fs ∧ script =
      opening { unpackingRecipe with steps := [] } (.ofTimestamp .epoch) ++
        Preflight.block ["grep", "sed", "unzip"] ++ "\n" ++ closing fs) ∧
    ∃ instructions, program? (Preflight.block ["grep", "sed", "unzip"]) = some instructions ∧
      ∀ available, Machine.run available {} instructions = Preflight.verdict available ["grep", "sed", "unzip"] := by
  have hscript : Installer.script unpackingRecipe (.ofTimestamp .epoch) =
      .ok (assemble unpackingRecipe (.ofTimestamp .epoch) _) := rfl
  have hneeded : Preflight.requiredCommands unpackingRecipe.steps = ["grep", "sed", "unzip"] := by
    have hperm : ["unzip", "sed", "grep"].Perm ["grep", "sed", "unzip"] := by decide
    exact Preflight.sortedSet_eq (by decide) fun c => hperm.mem_iff
  obtain ⟨hplace, -, -, -, -, hruns⟩ := preflight_agrees hscript
  rw [hneeded] at hplace hruns
  exact ⟨_, hscript, hplace, hruns⟩

end Installer

end Provision
