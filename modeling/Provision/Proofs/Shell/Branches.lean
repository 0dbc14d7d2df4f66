import Provision.Proofs.Shell.Choices

/-!
# The parts of a choice

`sequence?` splits a text into its commands, each with its words and operators, and `choice?` finds the two parts of an
`if` among commands, with whatever choices are in the parts. Blanks in front of the lines of a text change no command,
as long as each of them is a line for the shell as well, and does not begin in a quoted value
(`Indents.sequence?_eq`). So lines that are indented to stand in a choice have the same commands there as on their own
(`Encloses.of_holds`, `Encloses.of_fails`).
-/

namespace Provision.Shell

open Position

variable {l : Line} {ls ms : List Line} {c : Command} {cs ds : List Command} {clause : Clause} {s t : String}
  {d e : Nat}

/-- The text of lines. -/
def Lines.text (ls : List Line) : String :=
  "\n".intercalate (ls.map Line.text)

theorem Lines.text_append (hls : ls ≠ []) (hms : ms ≠ []) : text (ls ++ ms) = text ls ++ "\n" ++ text ms := by
  rw [text, List.map_append, String.intercalate_append_of_ne_nil (by simpa using hls) (by simpa using hms)]
  rfl

theorem Lines.text_singleton (l : Line) : text [l] = l.text :=
  String.intercalate_singleton

theorem Lines.text_between {ns : List Line} (hls : ls ≠ []) (hms : ms ≠ []) (hns : ns ≠ []) :
    text (ls ++ ms ++ ns) = text ls ++ "\n" ++ text ms ++ "\n" ++ text ns := by
  rw [text_append (List.append_ne_nil_of_left_ne_nil hls ms) hns, text_append hls hms]

/-- Blanks are put in front of lines of a text. What is before such a line ends outside of quotes. -/
inductive Indents : List Char → List Char → Prop
  | refl (cs : List Char) : Indents cs cs
  | blank {cs ds : List Char} (h : Indents cs ds) : Indents cs (' ' :: ds)
  | line {l cs ds : List Char} {ts : List Token} (hl : tokensFrom between l = some ts) (h : Indents cs ds) :
    Indents (l ++ '\n' :: cs) (l ++ '\n' :: ds)

namespace Indents

theorem tokensFrom_eq {cs ds : List Char} (h : Indents cs ds) : tokensFrom between ds = tokensFrom between cs := by
  induction h with
  | refl => rfl
  | blank _ ih => rw [tokensFrom_blank_left, ih]
  | line hl _ ih => rw [tokensFrom_newline hl, tokensFrom_newline hl, ih]

theorem indented {cs ds : List Char} (h : Indents (l.text.toList ++ cs) (l.text.toList ++ ds)) :
    Indents (l.text.toList ++ cs) (l.indented.text.toList ++ ds) := by
  rw [Line.indented]
  split
  · exact h
  · rw [Line.toList_text_cons]
    exact .blank (.blank h)

/-- Lines whose values stand apart may be indented, also if the values have line breaks. -/
theorem lines (h : ∀ l ∈ ls, l.isSpaced = true) :
    Indents (Lines.text ls).toList (Lines.text (ls.map Line.indented)).toList := by
  induction ls with
  | nil => exact .refl _
  | cons l ls ih =>
    obtain ⟨hl, hls⟩ := List.forall_mem_cons.1 h
    cases ls with
    | nil => simpa [Lines.text] using indented (.refl (l.text.toList ++ []))
    | cons l' ls =>
      have hrest := (Indents.line (Line.tokens_text hl) (ih hls)).indented
      simpa [Lines.text] using hrest

end Indents

def isEnd (t : Token) : Bool :=
  t = .operator '\n' || t = .operator ';'

/-- The commands of a text, each with the words and the operators in it. A word that opens, parts or ends a choice
begins one. -/
def sequence? (s : String) : Option (List Command) :=
  (tokens s).map (·.splitOnP isEnd)

theorem Indents.sequence?_eq (h : Indents s.toList t.toList) : sequence? t = sequence? s :=
  congrArg (Option.map _) h.tokensFrom_eq

theorem sequence?_append (hs : sequence? s = some cs) (ht : sequence? t = some ds) :
    sequence? (s ++ "\n" ++ t) = some (cs ++ ds) := by
  obtain ⟨ts, hts, rfl⟩ := Option.map_eq_some_iff.1 hs
  obtain ⟨us, hus, rfl⟩ := Option.map_eq_some_iff.1 ht
  rw [sequence?, tokens_line hts, hus, Option.map_some, Option.map_some, List.splitOnP_append_cons _ _ rfl]

def Line.commands (l : Line) : List Command :=
  l.words.splitOnP isEnd

theorem sequence?_line (h : l.isSpaced = true) : sequence? l.text = some l.commands := by
  rw [sequence?, Line.tokens_text h]
  rfl

theorem sequence?_lines (h : ∀ l ∈ ls, l.isSpaced = true) (hne : ls ≠ []) :
    sequence? (Lines.text ls) = some (ls.flatMap Line.commands) := by
  induction ls with
  | nil => exact absurd rfl hne
  | cons l ls ih =>
    obtain ⟨hl, hls⟩ := List.forall_mem_cons.1 h
    cases ls with
    | nil => simpa [Lines.text] using sequence?_line hl
    | cons l' ls =>
      have hline : sequence? (Lines.text [l]) = some l.commands := by simpa [Lines.text] using sequence?_line hl
      have hrest := ih hls (List.cons_ne_nil _ _)
      have htext := Lines.text_append (List.cons_ne_nil l []) (List.cons_ne_nil l' ls)
      rw [← List.singleton_append, htext, sequence?_append hline hrest]
      rfl

/-- A word that has its meaning where it is the first of a command. -/
def keyword (s : String) : Token :=
  .word (.plain s)

/-- In how many choices a reader is behind a command. No number is left behind one that ends the part of a choice in
which the reader began. -/
def depth? (d : Nat) (c : Command) : Option Nat :=
  if c.head? = some (keyword "if") then some (d + 1)
  else if c.head? = some (keyword "else") ∨ c.head? = some (keyword "elif") then if d = 0 then none else some d
  else if c.head? = some (keyword "fi") then if d = 0 then none else some (d - 1)
  else some d

/-- Reads up to the command that ends a part of a choice. It is the first of those that are left. -/
def readPart (d : Nat) : List Command → List Command × List Command
  | [] => ([], [])
  | c :: cs =>
    match depth? d c with
    | none => ([], c :: cs)
    | some e => (c :: (readPart e cs).1, (readPart e cs).2)

structure Choice where
  test : Command
  /-- The part that is run if the test succeeds. -/
  holds : List Command
  fails : List Command
  deriving DecidableEq, Repr

namespace Choice

def part (ch : Choice) : Bool → List Command
  | true => ch.holds
  | false => ch.fails

/-- The commands up to a part. -/
def before (ch : Choice) : Bool → List Command
  | true => [keyword "if" :: ch.test, [keyword "then"]]
  | false => (keyword "if" :: ch.test) :: [keyword "then"] :: (ch.holds ++ [[keyword "else"]])

/-- The commands behind a part. -/
def behind (ch : Choice) : Bool → List Command
  | true => [keyword "else"] :: (ch.fails ++ [[keyword "fi"]])
  | false => [[keyword "fi"]]

def commands (ch : Choice) : List Command :=
  (keyword "if" :: ch.test) :: [keyword "then"] :: (ch.holds ++ [keyword "else"] :: (ch.fails ++ [[keyword "fi"]]))

end Choice

/-- The choice that the commands are, where the words that part and end it stand alone. -/
def choice? (cs : List Command) : Option Choice :=
  let holds := readPart 0 (cs.drop 2)
  let fails := readPart 0 (holds.2.drop 1)
  let ch : Choice := ⟨(cs.headD []).drop 1, holds.1, fails.1⟩
  if ch.commands = cs then some ch else none

/-- The choices among the commands are all closed by them. -/
def Closed (cs : List Command) : Prop :=
  cs.foldlM depth? 0 = some 0

theorem readPart_append (h : cs.foldlM depth? d = some e) (hc : depth? e c = none) (rest : List Command) :
    readPart d (cs ++ c :: rest) = (cs, c :: rest) := by
  induction cs generalizing d with
  | nil =>
    obtain rfl := Option.some.inj h
    rw [List.nil_append, readPart, hc]
  | cons c' cs ih =>
    rw [List.foldlM_cons] at h
    obtain ⟨e', he', hcs⟩ := Option.bind_eq_some_iff.1 h
    simp only [List.cons_append, readPart, he', ih hcs]

theorem choice?_commands {ch : Choice} (hholds : Closed ch.holds) (hfails : Closed ch.fails) :
    choice? ch.commands = some ch := by
  have hreadHolds := readPart_append (c := [keyword "else"]) hholds (by decide) (ch.fails ++ [[keyword "fi"]])
  have hreadFails := readPart_append (c := [keyword "fi"]) hfails (by decide) []
  have hdrop : ch.commands.drop 2 = ch.holds ++ [keyword "else"] :: (ch.fails ++ [[keyword "fi"]]) := rfl
  simp only [choice?, hdrop, hreadHolds, List.drop_succ_cons, List.drop_zero, hreadFails]
  exact if_pos rfl

/-! ### Lines in a choice -/

/-- In how many choices a reader is behind a line of a block. -/
def Clause.depth? (d : Nat) : Clause → Option Nat
  | .run _ => some d
  | .ifFound _ => some (d + 1)
  | .otherwise => if d = 0 then none else some d
  | .fi => if d = 0 then none else some (d - 1)

theorem depth?_of_isCommand (h : isCommand c = true) : depth? d c = some d := by
  have hreserved : ∀ s, .plain s ∈ reserved → c.head? ≠ some (keyword s) := by
    intro s hs hhead
    rw [isCommand, hhead] at h
    simp [keyword, hs] at h
  have hif := hreserved "if" (by decide)
  have helse := hreserved "else" (by decide)
  have helif := hreserved "elif" (by decide)
  have hfi := hreserved "fi" (by decide)
  simp [depth?, hif, helse, helif, hfi]

theorem isEnd_of_isRedirected (h : Clause.isRedirected c = true) : ∀ t ∈ c, isEnd t = false := by
  fun_induction Clause.isRedirected c with
  | case1 => simp
  | case2 w ts ih => simpa [isEnd] using ih h
  | case3 o w ts ih =>
    simp only [Bool.and_eq_true, decide_eq_true_eq] at h
    obtain ⟨rfl, h⟩ := h
    simpa [isEnd] using ih h
  | case4 o o' w ts ih =>
    simp only [Bool.and_eq_true, decide_eq_true_eq] at h
    obtain ⟨⟨rfl, rfl⟩, h⟩ := h
    simpa [isEnd] using ih h
  | case5 => cases h

theorem splitOnP_probed {ts : List Token} {name : String} (h : Clause.probed? ts = some name) :
    ∃ test, ts.splitOnP isEnd = [keyword "if" :: test, [keyword "then"]] := by
  unfold Clause.probed? at h
  split at h
  · rename_i w1 w2 w3 name' rest
    split at h
    · rename_i hwords
      obtain ⟨hwords, hrest⟩ := hwords
      have htokens : tokens " >/dev/null 2>&1; then" =
          some ([.operator '>', .word (.plain "/dev/null"), .word (.plain "2"), .operator '>', .operator '&',
            .word (.plain "1")] ++ .operator ';' :: [keyword "then"]) := by decide
      obtain rfl := Option.some.inj (hrest.trans htokens)
      obtain ⟨rfl, -⟩ := List.cons.inj hwords
      have htest : ∀ t ∈ [Token.word (.plain "if"), .word w2, .word w3, .word ⟨name', false⟩, .operator '>',
          .word (.plain "/dev/null"), .word (.plain "2"), .operator '>', .operator '&', .word (.plain "1")],
          isEnd t = false := by simp [isEnd]
      exact ⟨_, List.splitOnP_append_cons_of_forall_mem htest _ rfl [keyword "then"]⟩
    · cases h
  · cases h

theorem depth_of_reads (h : l.Reads clause) : l.commands.foldlM depth? d = clause.depth? d := by
  obtain ⟨-, hread⟩ := h
  -- The cases are those in which a line is read: `else`, `fi`, a command and a test.
  rw [Clause.read?] at hread
  split at hread
  · rename_i hwords
    cases hread
    have hcommands : l.commands = [[keyword "else"]] := by rw [Line.commands, hwords]; rfl
    rw [hcommands]
    cases d <;> rfl
  split at hread
  · rename_i hwords
    cases hread
    have hcommands : l.commands = [[keyword "fi"]] := by rw [Line.commands, hwords]; rfl
    rw [hcommands]
    cases d <;> rfl
  split at hread
  · rename_i hcommand
    cases hread
    rw [Bool.and_eq_true] at hcommand
    have hcommands : l.commands = [l.words] := List.splitOnP_eq_singleton (isEnd_of_isRedirected hcommand.2)
    rw [hcommands, List.foldlM_cons, depth?_of_isCommand hcommand.1]
    rfl
  · obtain ⟨name, hprobed, rfl⟩ := Option.map_eq_some_iff.1 hread
    obtain ⟨test, hcommands⟩ := splitOnP_probed hprobed
    rw [Line.commands, hcommands]
    rfl

theorem depth_of_forall₂ {clauses : List Clause} (h : List.Forall₂ Line.Reads ls clauses) :
    (ls.flatMap Line.commands).foldlM depth? d = clauses.foldlM Clause.depth? d := by
  induction h generalizing d with
  | nil => rfl
  | cons hl _ ih =>
    rw [List.flatMap_cons, List.foldlM_append, depth_of_reads hl, List.foldlM_cons]
    simp only [ih]

theorem Block.depth_clauses (b : Block) (d : Nat) : b.clauses.foldlM Clause.depth? d = some d := by
  induction b generalizing d with
  | done => rfl
  | run c rest ih => exact ih d
  | choice name found missing rest ihfound ihmissing ihrest =>
    have hopen : ∀ cs, (Clause.ifFound name :: cs).foldlM Clause.depth? d = cs.foldlM Clause.depth? (d + 1) :=
      fun _ => rfl
    have hpart : ∀ cs, (Clause.otherwise :: cs).foldlM Clause.depth? (d + 1) = cs.foldlM Clause.depth? (d + 1) :=
      fun _ => rfl
    have hclose : ∀ cs, (Clause.fi :: cs).foldlM Clause.depth? (d + 1) = cs.foldlM Clause.depth? d := fun _ => rfl
    rw [clauses, hopen, List.foldlM_append, ihfound, Option.bind_eq_bind, Option.bind_some, hpart, List.foldlM_append,
      ihmissing, Option.bind_eq_bind, Option.bind_some, hclose, ihrest]

/-- Lines that are a part of a choice: simple commands, and choices with their ends. -/
structure IsBlock (ls : List Line) : Prop where
  ne_nil : ls ≠ []
  reads : ∃ b : Block, List.Forall₂ Line.Reads ls b.clauses

namespace IsBlock

theorem isSpaced (h : IsBlock ls) : ∀ l ∈ ls, l.isSpaced = true := by
  obtain ⟨-, b, hreads⟩ := h
  generalize b.clauses = clauses at hreads
  induction hreads with
  | nil => simp
  | cons hl _ ih => exact List.forall_mem_cons.2 ⟨hl.1, ih⟩

theorem closed (h : IsBlock ls) : Closed (ls.flatMap Line.commands) := by
  obtain ⟨-, b, hreads⟩ := h
  rw [Closed, depth_of_forall₂ hreads, b.depth_clauses]

theorem sequence?_text (h : IsBlock ls) : sequence? (Lines.text ls) = some (ls.flatMap Line.commands) :=
  sequence?_lines h.isSpaced h.ne_nil

theorem indented (h : IsBlock ls) : IsBlock (ls.map Line.indented) where
  ne_nil := by simpa using h.ne_nil
  reads := h.reads.imp fun _ => forall₂_indented

end IsBlock

/-- A text is a choice, and one part of it has the commands of another text. Where this part is in the text, there is
the other text with indented lines. -/
structure Encloses (whole inner : String) (ch : Choice) (b : Bool) : Prop where
  choice : (sequence? whole).bind choice? = some ch
  commands : sequence? inner = some (ch.part b)
  text : ∃ before indented behind, whole = before ++ "\n" ++ indented ++ "\n" ++ behind ∧
    sequence? before = some (ch.before b) ∧ Indents inner.toList indented.toList ∧
    sequence? behind = some (ch.behind b)

theorem Choice.commands_part (ch : Choice) (b : Bool) : ch.before b ++ ch.part b ++ ch.behind b = ch.commands := by
  cases b <;> simp [before, part, behind, commands]

/-- The lines of a choice whose test is a line of its own. -/
def Lines.choice (l : Line) (holds fails : List Line) : List Line :=
  [l] ++ holds ++ [[.code "else"]] ++ fails ++ [[.code "fi"]]

section

variable {test : Command} {holds fails : List Line}

theorem sequence?_else : sequence? (Lines.text [[.code "else"]]) = some [[keyword "else"]] := by decide

theorem sequence?_fi : sequence? (Lines.text [[.code "fi"]]) = some [[keyword "fi"]] := by decide

theorem Encloses.of_texts {before inner indented behind : String} {ch : Choice} {b : Bool} (hholds : Closed ch.holds)
    (hfails : Closed ch.fails) (hbefore : sequence? before = some (ch.before b))
    (hinner : sequence? inner = some (ch.part b)) (hindents : Indents inner.toList indented.toList)
    (hbehind : sequence? behind = some (ch.behind b)) :
    Encloses (before ++ "\n" ++ indented ++ "\n" ++ behind) inner ch b where
  choice := by
    have hindented : sequence? indented = some (ch.part b) := hindents.sequence?_eq.trans hinner
    rw [sequence?_append (sequence?_append hbefore hindented) hbehind, ch.commands_part, Option.bind_some,
      choice?_commands hholds hfails]
  commands := hinner
  text := ⟨before, indented, behind, rfl, hbefore, hindents, hbehind⟩

theorem Encloses.of_holds (htest : sequence? l.text = some [keyword "if" :: test, [keyword "then"]])
    (hholds : IsBlock holds) (hfails : IsBlock fails) :
    Encloses (Lines.text (Lines.choice l (holds.map Line.indented) fails)) (Lines.text holds)
      ⟨test, holds.flatMap Line.commands, fails.flatMap Line.commands⟩ true := by
  have hbehind : sequence? (Lines.text ([[.code "else"]] ++ fails ++ [[.code "fi"]])) =
      some ([[keyword "else"]] ++ fails.flatMap Line.commands ++ [[keyword "fi"]]) := by
    rw [Lines.text_between (by simp) hfails.ne_nil (by simp)]
    exact sequence?_append (sequence?_append sequence?_else hfails.sequence?_text) sequence?_fi
  have htext : Lines.text (Lines.choice l (holds.map Line.indented) fails) = l.text ++ "\n" ++
      Lines.text (holds.map Line.indented) ++ "\n" ++ Lines.text ([[.code "else"]] ++ fails ++ [[.code "fi"]]) := by
    rw [← Lines.text_singleton l, ← Lines.text_between (by simp) hholds.indented.ne_nil (by simp)]
    simp [Lines.choice]
  rw [htext]
  exact .of_texts hholds.closed hfails.closed htest hholds.sequence?_text (.lines hholds.isSpaced) hbehind

theorem Encloses.of_fails (htest : sequence? l.text = some [keyword "if" :: test, [keyword "then"]])
    (hholds : IsBlock holds) (hfails : IsBlock fails) :
    Encloses (Lines.text (Lines.choice l holds (fails.map Line.indented))) (Lines.text fails)
      ⟨test, holds.flatMap Line.commands, fails.flatMap Line.commands⟩ false := by
  have hbefore : sequence? (Lines.text ([l] ++ holds ++ [[.code "else"]])) =
      some ([keyword "if" :: test, [keyword "then"]] ++ holds.flatMap Line.commands ++ [[keyword "else"]]) := by
    rw [Lines.text_between (by simp) hholds.ne_nil (by simp), Lines.text_singleton]
    exact sequence?_append (sequence?_append htest hholds.sequence?_text) sequence?_else
  rw [Lines.choice, Lines.text_between (by simp) hfails.indented.ne_nil (by simp)]
  exact .of_texts hholds.closed hfails.closed hbefore hfails.sequence?_text (.lines hfails.isSpaced) sequence?_fi

end

end Provision.Shell
