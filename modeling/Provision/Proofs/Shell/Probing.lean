import Mathlib.Data.List.Forall2
import Provision.Proofs.Shell.Words

/-!
# Commands that test for others

A part of the shell's language: commands that look for others, gather names in an array, and tell of these and exit
under a condition. `program?` reads a text as a list of such commands, one on each line (`program?_lines`), and
`Machine.run` executes them on a machine with a set of available commands.
-/

namespace Provision.Shell

/-- A line of a script. There is one array, with the name `missing`. -/
inductive Instruction where
  | nothing
  /-- `missing=()` -/
  | clear
  /-- `missing+=(…)` -/
  | gather (name : String)
  /-- `if ! command -v … >/dev/null 2>&1; then` -/
  | unlessFound (name : String)
  /-- `if [ … -ne 0 ]; then`, with the size of the array. -/
  | ifGathered
  | fi
  /-- `echo "… …" >&2`, with what is in the array at the end. -/
  | tell (text : String)
  | exit (status : Nat)
  deriving DecidableEq, Repr

namespace Instruction

/-- Reads what stands behind `if`. -/
def readCondition? : List Token → Option Instruction
  | [.word w1, .word w2, .word w3, .word ⟨name, false⟩, .operator '>', .word w4, .word w5, .operator '>', .operator '&',
      .word w6, .operator ';', .word w7] =>
    if [w1, w2, w3, w4, w5, w6, w7] = ["!", "command", "-v", "/dev/null", "2", "1", "then"].map Word.plain then
      some (.unlessFound (String.ofList name))
    else none
  | [.word w1, .word w2, .word w3, .word w4, .word w5, .operator ';', .word w6] =>
    if [w1, w2] = [⟨"[".toList, true⟩, ⟨"$\x7b#missing[@]\x7d".toList, true⟩] ∧
        [w3, w4, w5, w6] = ["-ne", "0", "]", "then"].map Word.plain then
      some .ifGathered
    else none
  | _ => none

/-- The array as it stands in a text. -/
def gathered : List Char :=
  "$\x7bmissing[*]\x7d".toList

/-- Reads a line. -/
def read? : List Token → Option Instruction
  | [] => some .nothing
  | .word ⟨'#' :: _, false⟩ :: _ => some .nothing
  | [.word w] => if w = .plain "fi" then some .fi else none
  | [.word w, .operator '(', .operator ')'] => if w = .plain "missing=" then some .clear else none
  | [.word w, .operator '(', .word ⟨name, false⟩, .operator ')'] =>
    if w = .plain "missing+=" then some (.gather (String.ofList name)) else none
  | [.word w, .word ⟨status, false⟩] =>
    if w = .plain "exit" ∧ status.all Char.isDigit then some (.exit (Nat.ofDigitChars 10 status 0)) else none
  | [.word w1, .word ⟨text, true⟩, .operator '>', .operator '&', .word w2] =>
    if [w1, w2] = ["echo", "2"].map Word.plain ∧ gathered <:+ text then
      some (.tell (String.ofList (text.take (text.length - gathered.length))))
    else none
  | .word w :: rest => if w = .plain "if" then readCondition? rest else none
  | _ => none

end Instruction

/-- Reads a text, each line of which is a command. -/
def program? (s : String) : Option (List Instruction) :=
  (tokens s).bind fun ts => (ts.splitOn (.operator '\n')).mapM Instruction.read?

/-- The line is read as the command. -/
def IsLine (l : String) (c : Instruction) : Prop :=
  ∃ ts, tokens l = some ts ∧ .operator '\n' ∉ ts ∧ Instruction.read? ts = some c

instance (l : String) (c : Instruction) : Decidable (IsLine l c) :=
  decidable_of_iff (∃ ts ∈ tokens l, .operator '\n' ∉ ts ∧ Instruction.read? ts = some c) Iff.rfl

variable {l name text : String} {c : Instruction} {cs : List Instruction} {ls : List String}

theorem program?_line (h : IsLine l c) (rest : String) :
    program? (l ++ "\n" ++ rest) = (program? rest).map (c :: ·) := by
  obtain ⟨ts, htokens, hline, hread⟩ := h
  rw [program?, program?, tokens_line htokens]
  cases tokens rest with
  | none => rfl
  | some us =>
    rw [Option.map_some, Option.bind_some, Option.bind_some, List.splitOn_append_cons_self,
      List.splitOn_eq_singleton hline, List.singleton_append, List.mapM_cons, hread]
    exact (Option.map_eq_bind ..).symm

theorem program?_lines (h : List.Forall₂ IsLine ls cs) (hne : ls ≠ []) :
    program? ("\n".intercalate ls ++ "\n") = some (cs ++ [.nothing]) := by
  have hend : ∀ l c, IsLine l c → program? (l ++ "\n") = some [c, .nothing] := fun l c hl => by
    rw [← String.append_empty (s := l ++ "\n"), program?_line hl]
    rfl
  induction h with
  | nil => exact absurd rfl hne
  | @cons l c ls cs hl hls ih =>
    cases hls with
    | nil =>
      rw [String.intercalate_singleton]
      exact hend l c hl
    | cons hl' hls' =>
      rw [String.intercalate_cons_cons, String.append_assoc, program?_line hl, ih (List.cons_ne_nil _ _)]
      rfl

/-- The name of a command: a text without a character that has a meaning. -/
structure IsCommand (name : String) : Prop where
  plain : ∀ c ∈ name.toList, isPlain c = true
  ne_empty : name ≠ ""

theorem IsCommand.toList_ne_nil (h : IsCommand name) : name.toList ≠ [] := by
  intro hnil
  exact h.ne_empty (String.toList_inj.1 (hnil.trans String.toList_empty.symm))

theorem isLine_unlessFound (h : IsCommand name) :
    IsLine ("if ! command -v " ++ name ++ " >/dev/null 2>&1; then") (.unlessFound name) := by
  have hbefore : Position.between.after "if ! command -v ".toList = .between := by decide
  refine ⟨[.word (.plain "if"), .word (.plain "!"), .word (.plain "command"), .word (.plain "-v"),
    .word (.plain name), .operator '>', .word (.plain "/dev/null"), .word (.plain "2"), .operator '>', .operator '&',
    .word (.plain "1"), .operator ';', .word (.plain "then")], ?_, by simp, ?_⟩
  · rw [tokens, String.toList_append, String.toList_append, List.append_assoc, tokensFrom_append, hbefore,
      tokensFrom_word h.toList_ne_nil h.plain (by decide)]
    rfl
  · simp [Instruction.read?, Instruction.readCondition?, Word.plain]

theorem isLine_gather (h : IsCommand name) : IsLine ("  missing+=(\"" ++ name ++ "\")") (.gather name) := by
  have hbefore : Position.between.after "  missing+=(\"".toList = .double := by decide
  have hbehind : tokensFrom .double "\")".toList = some [.word {}, .operator ')'] := by decide
  obtain ⟨hafter, hemits⟩ := read_plain (.inr rfl) h.plain
  refine ⟨[.word (.plain "missing+="), .operator '(', .word (.plain name), .operator ')'], ?_, by simp, ?_⟩
  · rw [tokens, String.toList_append, String.toList_append, List.append_assoc, tokensFrom_append, hbefore,
      tokensFrom_append, hafter, hemits, hbehind]
    simp only [Option.map_some, Position.prepend, List.append_nil, Bool.or_false]
    rfl
  · simp [Instruction.read?, Word.plain]

/-- What is known of a machine on which a script runs. -/
structure Machine where
  /-- The commands that were looked for. -/
  tested : List String := []
  /-- The names in the array. -/
  gathered : List String := []
  /-- The lines that were told. -/
  told : List String := []
  status : Option Nat := none
  /-- The conditions around the next command, from the outermost one that does not hold on. -/
  skipped : Nat := 0
  deriving DecidableEq, Repr

namespace Machine

/-- Executes a command where no condition keeps it from that. -/
def execute (available : String → Bool) (m : Machine) : Instruction → Machine
  | .nothing | .fi => m
  | .clear => { m with gathered := [] }
  | .gather name => { m with gathered := m.gathered ++ [name] }
  | .unlessFound name => { m with tested := m.tested ++ [name], skipped := if available name then 1 else 0 }
  | .ifGathered => { m with skipped := if m.gathered = [] then 1 else 0 }
  | .tell text => { m with told := m.told ++ [text ++ " ".intercalate m.gathered] }
  | .exit status => { m with status }

/-- Passes over a command. -/
def pass (m : Machine) : Instruction → Machine
  | .unlessFound _ | .ifGathered => { m with skipped := m.skipped + 1 }
  | .fi => { m with skipped := m.skipped - 1 }
  | _ => m

def step (available : String → Bool) (m : Machine) (c : Instruction) : Machine :=
  if m.status.isSome then m
  else if m.skipped = 0 then m.execute available c
  else m.pass c

def run (available : String → Bool) (m : Machine) (cs : List Instruction) : Machine :=
  cs.foldl (step available) m

theorem run_append (available : String → Bool) (m : Machine) (cs ds : List Instruction) :
    m.run available (cs ++ ds) = (m.run available cs).run available ds :=
  List.foldl_append

end Machine

end Provision.Shell
