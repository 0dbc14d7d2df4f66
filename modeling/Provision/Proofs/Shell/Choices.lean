import Mathlib.Data.List.Forall2
import Provision.Proofs.Shell.Lists
import Provision.Proofs.Shell.Pieces

/-!
# Choices by whether a command is there

A part of the shell's language: lines that are one simple command each, and choices that look for a command and run
one of two parts. `clauses?` reads a text as such lines. A block is a tree of them, which its lines decide
(`Block.clauses_injective`), and `Block.ran` says what it runs on a machine with a set of available commands.
-/

namespace Provision.Shell

/-- A line of a block. -/
inductive Clause where
  | run (c : Command)
  /-- `if command -v … >/dev/null 2>&1; then` -/
  | ifFound (name : String)
  | otherwise
  | fi
  deriving DecidableEq, Repr

namespace Clause

/-- Words, and redirections of the output. -/
def isRedirected : List Token → Bool
  | [] => true
  | .word _ :: ts => isRedirected ts
  | .operator c :: .word _ :: ts => c = '>' && isRedirected ts
  | .operator c :: .operator d :: .word _ :: ts => c = '>' && d = '&' && isRedirected ts
  | _ => false

/-- The name of the command that a line looks for. -/
def probed? : List Token → Option String
  | .word w1 :: .word w2 :: .word w3 :: .word ⟨name, false⟩ :: rest =>
    if [w1, w2, w3] = ["if", "command", "-v"].map Word.plain ∧ some rest = tokens " >/dev/null 2>&1; then" then
      some (String.ofList name)
    else none
  | _ => none

/-- Reads the words of a line. -/
def read? (ts : List Token) : Option Clause :=
  if ts = [.word (.plain "else")] then some .otherwise
  else if ts = [.word (.plain "fi")] then some .fi
  else if isCommand ts && isRedirected ts then some (.run ts)
  else (probed? ts).map .ifFound

end Clause

/-- Reads a text line by line. -/
def clauses? (s : String) : Option (List Clause) :=
  (tokens s).bind fun ts => (ts.splitOn (.operator '\n')).mapM Clause.read?

/-- The line is read as the clause, whatever its values hold. -/
def Line.Reads (l : Line) (c : Clause) : Prop :=
  l.isSpaced = true ∧ Clause.read? l.words = some c

instance (l : Line) (c : Clause) : Decidable (l.Reads c) :=
  inferInstanceAs (Decidable (_ ∧ _))

variable {l : Line} {ls : List Line} {c : Clause} {cs : List Clause}

theorem Line.Reads.run (hspaced : l.isSpaced = true) (hcommand : isCommand l.words = true)
    (hredirected : Clause.isRedirected l.words = true) : l.Reads (.run l.words) := by
  have helse : l.words ≠ [.word (.plain "else")] := fun h => by
    rw [h] at hcommand
    exact absurd hcommand (by decide)
  have hfi : l.words ≠ [.word (.plain "fi")] := fun h => by
    rw [h] at hcommand
    exact absurd hcommand (by decide)
  exact ⟨hspaced, by rw [Clause.read?, if_neg helse, if_neg hfi, hcommand, hredirected]; rfl⟩

theorem Line.Reads.indented (h : l.Reads c) : l.indented.Reads c :=
  ⟨isSpaced_indented h.1, by rw [words_indented, h.2]⟩

theorem forall₂_indented (h : List.Forall₂ Line.Reads ls cs) : List.Forall₂ Line.Reads (ls.map Line.indented) cs :=
  List.forall₂_map_left_iff.2 (h.imp fun _ _ => Line.Reads.indented)

theorem clauses?_lines (h : List.Forall₂ Line.Reads ls cs) (hne : ls ≠ []) :
    clauses? ("\n".intercalate (ls.map Line.text)) = some cs := by
  induction h with
  | nil => exact absurd rfl hne
  | @cons l c ls cs hl hls ih =>
    have htokens := Line.tokens_text hl.1
    have hline := Line.newline_not_mem_words hl.1
    cases hls with
    | nil =>
      rw [List.map_singleton, String.intercalate_singleton, clauses?, htokens, Option.bind_some,
        List.splitOn_eq_singleton hline, List.mapM_cons, hl.2]
      rfl
    | @cons l' c' ls cs hl' hls =>
      have hrest := ih (List.cons_ne_nil _ _)
      rw [List.map_cons, List.map_cons, String.intercalate_cons_cons, clauses?, tokens_line htokens]
      rw [clauses?, List.map_cons] at hrest
      obtain ⟨ts, hts, hread⟩ := Option.bind_eq_some_iff.1 hrest
      rw [hts, Option.map_some, Option.bind_some, List.splitOn_append_cons_self, List.splitOn_eq_singleton hline,
        List.singleton_append, List.mapM_cons, hl.2, hread]
      rfl

/-- Commands and choices, one behind the other. -/
inductive Block where
  | done
  | run (c : Command) (rest : Block)
  | choice (name : String) (found missing rest : Block)
  deriving DecidableEq, Repr

namespace Block

def clauses : Block → List Clause
  | done => []
  | run c rest => .run c :: rest.clauses
  | choice name found missing rest =>
    .ifFound name :: (found.clauses ++ .otherwise :: (missing.clauses ++ .fi :: rest.clauses))

/-- The commands that the block runs, where each of them succeeds. -/
def ran (available : String → Bool) : Block → List Command
  | done => []
  | run c rest => c :: rest.ran available
  | choice name found missing rest =>
    (if available name then found.ran available else missing.ran available) ++ rest.ran available

/-- The commands one by one, and then a block. -/
def runs (cs : List Command) (rest : Block) : Block :=
  cs.foldr run rest

theorem ran_runs (available : String → Bool) (cs : List Command) (rest : Block) :
    (runs cs rest).ran available = cs ++ rest.ran available := by
  induction cs with
  | nil => rfl
  | cons c cs ih => exact congrArg (c :: ·) ih

theorem reads_choice {name : String} {ls ls' ls'' : List Line} {found missing rest : Block}
    (hprobe : l.Reads (.ifFound name)) (hfound : List.Forall₂ Line.Reads ls found.clauses)
    (hmissing : List.Forall₂ Line.Reads ls' missing.clauses) (hrest : List.Forall₂ Line.Reads ls'' rest.clauses) :
    List.Forall₂ Line.Reads (l :: (ls ++ [.code "else"] :: (ls' ++ [.code "fi"] :: ls'')))
      (choice name found missing rest).clauses :=
  .cons hprobe (List.rel_append hfound (.cons ⟨by decide, by decide⟩
    (List.rel_append hmissing (.cons (by decide) hrest))))

/-- No block begins there: a part of a choice ends, or the whole text. -/
def Ended (cs : List Clause) : Prop :=
  ∀ c ∈ cs.head?, c = .otherwise ∨ c = .fi

theorem Ended.clauses_eq_done {b : Block} {cs cs' : List Clause} (h : Ended cs) (heq : cs = b.clauses ++ cs') :
    b = done ∧ cs = cs' := by
  subst heq
  cases b with
  | done => exact ⟨rfl, rfl⟩
  | run c rest => rcases h (.run c) rfl with h | h <;> cases h
  | choice name found missing rest => rcases h (.ifFound name) rfl with h | h <;> cases h

theorem clauses_append_inj {b b' : Block} {cs cs' : List Clause} (h : Ended cs) (h' : Ended cs')
    (heq : b.clauses ++ cs = b'.clauses ++ cs') : b = b' ∧ cs = cs' := by
  have hpart : ∀ c : Clause, c = .otherwise ∨ c = .fi → ∀ cs, Ended (c :: cs) := by
    rintro c hc cs d hd
    cases hd
    exact hc
  induction b generalizing b' cs cs' with
  | done =>
    obtain ⟨rfl, hcs⟩ := h.clauses_eq_done heq
    exact ⟨rfl, hcs⟩
  | run c rest ih =>
    cases b' with
    | done => cases (h'.clauses_eq_done (b := run c rest) heq.symm).1
    | run c' rest' =>
      obtain ⟨hc, hrest⟩ := List.cons.inj heq
      obtain ⟨rfl, hcs⟩ := ih h h' hrest
      exact ⟨by rw [Clause.run.inj hc], hcs⟩
    | choice => cases (List.cons.inj heq).1
  | choice name found missing rest ihfound ihmissing ihrest =>
    cases b' with
    | done => cases (h'.clauses_eq_done (b := choice name found missing rest) heq.symm).1
    | run => cases (List.cons.inj heq).1
    | choice name' found' missing' rest' =>
      simp only [clauses, List.cons_append, List.append_assoc] at heq
      obtain ⟨hname, hfound⟩ := List.cons.inj heq
      obtain ⟨rfl, helse⟩ := ihfound (hpart _ (.inl rfl) _) (hpart _ (.inl rfl) _) hfound
      obtain ⟨rfl, hfi⟩ := ihmissing (hpart _ (.inr rfl) _) (hpart _ (.inr rfl) _) (List.cons.inj helse).2
      obtain ⟨rfl, hcs⟩ := ihrest h h' (List.cons.inj hfi).2
      exact ⟨by rw [Clause.ifFound.inj hname], hcs⟩

theorem clauses_injective : Function.Injective clauses := by
  intro b b' h
  have hnil : Ended [] := fun c hc => by cases hc
  exact (clauses_append_inj hnil hnil (congrArg (· ++ []) h)).1

end Block

end Provision.Shell
