import Provision.Proofs.Shell.Words

/-!
# Lists of commands

`commands?` reads a text as a list of commands: simple commands that are joined by `&&` and `||`, and lists of these
that end at a `;` or at the end of a line. A simple command is taken as its words and the operators of its
redirections. Everything else is refused: compound commands and reserved words, pipes and commands in the background,
subshells and commands whose output is replaced, here-documents, comments and continued lines. So a text that is read
has no parenthesis that could end it too early.

`runList` runs such a list under `set -e`, when it is known of each command whether it succeeds. A command behind `&&`
or `||` is run, or skipped, by the last status before it, and a failure stops the list only if it is that of the last
command of those that are joined.

A command in front of `&&` guards the first of the lists behind it (`commands_behind`). If it fails, then nothing else
is run exactly if there are no others, and nothing in this one is joined by `||` (`runList_behind`).
-/

namespace Provision.Shell

open Position

/-- A simple command: its words, and the operators that redirect it. -/
abbrev Command := List Token

inductive Connective where
  | and
  | or
  deriving DecidableEq, Repr

/-- Commands that are joined from left to right. -/
structure AndOr where
  first : Command
  rest : List (Connective × Command) := []
  deriving DecidableEq, Repr

/-- What stands between two commands. -/
inductive Joint where
  | link (k : Connective)
  | semicolon
  | newline
  deriving DecidableEq, Repr

/-- Where the reader stands in a list of commands. -/
inductive Scan where
  /-- Where the character before does not matter. -/
  | plain (q : Position)
  /-- Behind the first character of an operator. -/
  | ampersand | bar | less | greater
  /-- Behind a `$`. -/
  | dollar (q : Position)
  /-- In the braces around a variable. -/
  | brace (q : Position)
  deriving DecidableEq, Repr

/-- What a character adds to a list of commands. -/
inductive Part where
  | text (cs : List Char)
  | joint (j : Joint)
  deriving DecidableEq, Repr

namespace Scan

/-- A character that does not belong to the one before. -/
def alone (q : Position) (c : Char) : Option (Scan × Part) :=
  match q with
  | between | bare =>
    if c = '\n' then some (plain between, .joint .newline)
    else if c = ';' then some (plain between, .joint .semicolon)
    else if c = '&' then some (ampersand, .text [])
    else if c = '|' then some (bar, .text [])
    else if c = '<' then some (less, .text [c])
    else if c = '>' then some (greater, .text [c])
    else if c = '(' || c = ')' || c = '\x60' || (c = '#' && q = between) then none
    else if c = '$' then some (dollar bare, .text [c])
    else some (plain (q.next c), .text [c])
  | single => some (plain (single.next c), .text [c])
  | double =>
    if c = '\x60' then none
    else if c = '$' then some (dollar double, .text [c])
    else some (plain (double.next c), .text [c])
  | behind _ | guarded => if c = '\n' then none else some (plain (q.next c), .text [c])

def step : Scan → Char → Option (Scan × Part)
  | plain q, c => alone q c
  | ampersand, c =>
    if c = '&' then some (plain between, .joint (.link .and))
    else if c = '>' then some (plain between, .text ['&', c])
    else none
  | bar, c => if c = '|' then some (plain between, .joint (.link .or)) else none
  | less, c =>
    if c = '<' then none
    else if c = '&' || c = '>' then some (plain between, .text [c])
    else alone between c
  | greater, c => if c = '>' || c = '&' || c = '|' then some (plain between, .text [c]) else alone between c
  | dollar q, c =>
    if c = '(' || c = '[' || (c = '\x27' && q = bare) then none
    else if c = '\x7b' then some (brace q, .text [c])
    else alone q c
  | brace q, c =>
    if c = '\x7d' then some (plain q, .text [c])
    else if isBreak c || (opened? true c).isSome || expandsQuoted c then none
    else some (brace q, .text [c])

/-- Whether a text may end there. -/
def ends : Scan → Bool
  | plain between | plain bare | dollar bare => true
  | _ => false

/-- Where a text leads, and its parts. -/
def walk (m : Scan) : List Char → Option (Scan × List Part)
  | [] => some (m, [])
  | c :: cs => (m.step c).bind fun r => (walk r.1 cs).map fun r' => (r'.1, r.2 :: r'.2)

end Scan

open Scan

/-- The text before the first joint, and each joint with the text behind it. -/
def split : List Part → List Char × List (Joint × List Char)
  | [] => ([], [])
  | .text cs :: ps => (cs ++ (split ps).1, (split ps).2)
  | .joint j :: ps => ([], (j, (split ps).1) :: (split ps).2)

/-- The words that begin something else, where they are the first of a command. -/
def reserved : List Word :=
  ["!", "\x7b", "\x7d", "[[", "case", "coproc", "do", "done", "elif", "else", "esac", "fi", "for", "function", "if",
    "select", "then", "time", "until", "while"].map .plain

/-- Whether the tokens are a simple command. There is no operator without a word behind it. -/
def isCommand (ts : List Token) : Bool :=
  (match ts.head? with
    | some (.word w) => !reserved.contains w
    | _ => true) &&
  match ts.getLast? with
    | some (.word _) => true
    | _ => false

/-- The list with a command in front of it. There must be one behind `&&` and `||`. -/
def Joint.attach (c : Command) : Joint → List AndOr → Option (List AndOr)
  | link k, l :: ls => some (⟨c, (k, l.first) :: l.rest⟩ :: ls)
  | link _, [] => none
  | semicolon, ls | newline, ls => some (⟨c, []⟩ :: ls)

/-- The list of the texts between the joints. A line without a command is passed over. -/
def gather (cs : List Char) : List (Joint × List Char) → Option (List AndOr)
  | [] => (tokensFrom between cs).bind fun ts =>
    if ts = [] then some [] else if isCommand ts then some [⟨ts, []⟩] else none
  | (j, ds) :: ps => (tokensFrom between cs).bind fun ts =>
    if ts = [] then if j = .newline then gather ds ps else none
    else if isCommand ts then (gather ds ps).bind (j.attach ts) else none

/-- The list of commands that a text is. -/
def commands? (cs : List Char) : Option (List AndOr) :=
  (walk (plain between) cs).bind fun r => if r.1.ends then gather (split r.2).1 (split r.2).2 else none

example : commands? "make >log 2>&1 && a '&&' \"$x;\" || b; c".toList =
    some [⟨[.word (.plain "make"), .operator '>', .word (.plain "log"), .word (.plain "2"), .operator '>',
        .operator '&', .word (.plain "1")],
        [(.and, [.word (.plain "a"), .word (.plain "&&"), .word ⟨"$x;".toList, true⟩]), (.or, [.word (.plain "b")])]⟩,
      ⟨[.word (.plain "c")], []⟩] := by decide

variable {c cd : Command} {a cs ds : List Char} {m m' : Scan} {ps qs : List Part} {ts : List Token} {l : AndOr}
  {ls : List AndOr}

theorem walk_append (m : Scan) (cs ds : List Char) :
    m.walk (cs ++ ds) = (m.walk cs).bind fun r => (r.1.walk ds).map fun r' => (r'.1, r.2 ++ r'.2) := by
  induction cs generalizing m with
  | nil => simp [walk]
  | cons d cs ih =>
    simp only [List.cons_append, walk, ih]
    cases m.step d with
    | none => rfl
    | some r =>
      simp only [Option.bind_some]
      cases r.1.walk cs with
      | none => rfl
      | some r' => simp [Function.comp_def]

theorem walk_newline (hm : m.ends = true) : m.walk ['\n'] = some (plain between, [.joint .newline]) := by
  unfold ends at hm
  split at hm
  · rfl
  · rfl
  · rfl
  · cases hm

/-- The text of parts without a joint. -/
def texts (cs : List Char) : List Part :=
  cs.map fun c => .text [c]

theorem split_texts (cs : List Char) (ps : List Part) :
    split (texts cs ++ ps) = (cs ++ (split ps).1, (split ps).2) := by
  induction cs with
  | nil => rfl
  | cons c cs ih =>
    rw [texts, List.map_cons, List.cons_append, split, ← texts, ih]
    rfl

theorem split_newline (ps : List Part) :
    split (ps ++ [.joint .newline]) = ((split ps).1, (split ps).2 ++ [(.newline, [])]) := by
  induction ps with
  | nil => rfl
  | cons p ps ih => cases p <;> simp [split, ih]

theorem gather_newline (cs : List Char) (ps : List (Joint × List Char)) :
    gather cs (ps ++ [(.newline, [])]) = gather cs ps := by
  induction ps generalizing cs with
  | nil =>
    have hnil : gather [] [] = some [] := rfl
    rw [List.nil_append, gather, gather, hnil]
    rfl
  | cons p ps ih => rw [List.cons_append, gather, gather, ih]

theorem gather_congr (h : tokensFrom between cs = tokensFrom between ds) (ps : List (Joint × List Char)) :
    gather cs ps = gather ds ps := by
  cases ps <;> rw [gather, gather, h]

theorem tokensFrom_blank_left (cs : List Char) : tokensFrom between (' ' :: cs) = tokensFrom between cs :=
  Option.map_id'

theorem tokensFrom_blank_right {q : Position} (h : tokensFrom q cs = some ts) :
    tokensFrom q (cs ++ [' ']) = some ts := by
  induction cs generalizing q ts with
  | nil => cases q <;> cases h <;> rfl
  | cons c cs ih =>
    obtain ⟨us, hus, rfl⟩ := Option.map_eq_some_iff.1 h
    rw [List.cons_append, tokensFrom, ih hus]
    rfl

/-! ### Values in double quotes -/

/-- In double quotes, where the next character is one of a value again. -/
def Scan.InQuotes (m : Scan) : Prop :=
  m = plain double ∨ m = dollar double ∨ m = brace double

theorem walk_singleton {d : Char} (h : m.walk [d] = some (m', ps)) : ∃ p, m.step d = some (m', p) ∧ ps = [p] := by
  obtain ⟨⟨m'', p⟩, hstep, h⟩ := Option.bind_eq_some_iff.1 h
  cases h
  exact ⟨p, hstep, rfl⟩

theorem alone_double {d : Char} {p : Part} (hd : d ≠ '\\' ∧ d ≠ '\x22') (h : alone double d = some (m', p)) :
    m'.InQuotes ∧ p = .text [d] := by
  simp only [alone, next, hd, if_false] at h
  split at h
  · cases h
  split at h
  · cases h
    exact ⟨.inr (.inl rfl), rfl⟩
  · cases h
    exact ⟨.inl rfl, rfl⟩

theorem step_inQuotes {d : Char} {p : Part} (hm : m.InQuotes) (hd : d ≠ '\\' ∧ d ≠ '\x22')
    (h : m.step d = some (m', p)) : m'.InQuotes ∧ p = .text [d] := by
  rcases hm with rfl | rfl | rfl
  · exact alone_double hd h
  · rw [step] at h
    split at h
    · cases h
    split at h
    · cases h
      exact ⟨.inr (.inr rfl), rfl⟩
    · exact alone_double hd h
  · rw [step] at h
    split at h
    · cases h
      exact ⟨.inl rfl, rfl⟩
    split at h
    · cases h
    · cases h
      exact ⟨.inr (.inr rfl), rfl⟩

theorem walk_escapeDouble {d : Char} (hm : m.InQuotes) (h : m.walk (escapeDouble d) = some (m', ps)) :
    m'.InQuotes ∧ ps = texts (escapeDouble d) := by
  by_cases hd : d = '\\' ∨ d = '\x22' ∨ d = '\x60'
  · rcases hm with rfl | rfl | rfl <;> rcases hd with rfl | rfl | rfl <;> cases h <;> exact ⟨.inl rfl, rfl⟩
  · obtain ⟨hslash, hquote, hback⟩ : d ≠ '\\' ∧ d ≠ '\x22' ∧ d ≠ '\x60' := by simpa only [not_or] using hd
    have hone : escapeDouble d = [d] := by simp [escapeDouble, hslash, hquote, hback]
    rw [hone] at h ⊢
    obtain ⟨p, hstep, rfl⟩ := walk_singleton h
    obtain ⟨hm', rfl⟩ := step_inQuotes hm ⟨hslash, hquote⟩ hstep
    exact ⟨hm', rfl⟩

theorem walk_append_eq_some (h : m.walk (cs ++ ds) = some (m', ps)) :
    ∃ m'' qs qs', m.walk cs = some (m'', qs) ∧ m''.walk ds = some (m', qs') ∧ ps = qs ++ qs' := by
  rw [walk_append] at h
  obtain ⟨⟨m'', qs⟩, hcs, h⟩ := Option.bind_eq_some_iff.1 h
  obtain ⟨⟨m₁, qs'⟩, hds, h⟩ := Option.map_eq_some_iff.1 h
  cases h
  exact ⟨m'', qs, qs', hcs, hds, rfl⟩

theorem texts_append (cs ds : List Char) : texts (cs ++ ds) = texts cs ++ texts ds :=
  List.map_append

theorem walk_escapeDoubles (hm : m.InQuotes) (h : m.walk (cs.flatMap escapeDouble) = some (m', ps)) :
    m'.InQuotes ∧ ps = texts (cs.flatMap escapeDouble) := by
  induction cs generalizing m ps with
  | nil =>
    cases h
    exact ⟨hm, rfl⟩
  | cons d cs ih =>
    rw [List.flatMap_cons] at h ⊢
    obtain ⟨m'', qs, qs', hd, hcs, rfl⟩ := walk_append_eq_some h
    obtain ⟨hm'', rfl⟩ := walk_escapeDouble hm hd
    obtain ⟨hm', rfl⟩ := ih hm'' hcs
    exact ⟨hm', (texts_append ..).symm⟩

theorem walk_doubleQuoted {v : String} (h : (plain between).walk (doubleQuoted v).toList = some (m, ps)) :
    m = plain bare ∧ ps = texts (doubleQuoted v).toList := by
  have hchars : (doubleQuoted v).toList = ['\x22'] ++ (v.toList.flatMap escapeDouble ++ ['\x22']) := by
    simp [doubleQuoted]
  have hstart : (plain between).walk ['\x22'] = some (plain double, texts ['\x22']) := rfl
  rw [hchars] at h ⊢
  obtain ⟨m₁, qs, qs', hopen, hbehind, rfl⟩ := walk_append_eq_some h
  obtain ⟨rfl, rfl⟩ : plain double = m₁ ∧ texts ['\x22'] = qs := by simpa [hstart] using hopen
  obtain ⟨m₂, qs, qs', hv, hclose, rfl⟩ := walk_append_eq_some hbehind
  obtain ⟨hm₂, rfl⟩ := walk_escapeDoubles (.inl rfl) hv
  rw [texts_append, texts_append]
  rcases hm₂ with rfl | rfl | rfl <;> cases hclose <;> exact ⟨rfl, rfl⟩

theorem walk_escapeDouble_plain {d : Char} (hd : d ≠ '$') :
    (plain double).walk (escapeDouble d) = some (plain double, texts (escapeDouble d)) := by
  unfold escapeDouble
  split
  · rename_i hspecial
    simp only [Bool.or_eq_true, decide_eq_true_eq] at hspecial
    rcases hspecial with (rfl | rfl) | rfl <;> rfl
  · rename_i hplain
    simp only [Bool.or_eq_true, decide_eq_true_eq, not_or] at hplain
    simp [walk, step, alone, next, texts, hplain, hd]

theorem walk_escapeDoubles_plain (hcs : ∀ d ∈ cs, d ≠ '$') :
    (plain double).walk (cs.flatMap escapeDouble) = some (plain double, texts (cs.flatMap escapeDouble)) := by
  induction cs with
  | nil => rfl
  | cons d cs ih =>
    obtain ⟨hd, hcs⟩ := List.forall_mem_cons.1 hcs
    rw [List.flatMap_cons, walk_append, walk_escapeDouble_plain hd, Option.bind_some, ih hcs, texts_append]
    rfl

theorem walk_doubleQuoted_plain {v : String} (hv : ∀ d ∈ v.toList, d ≠ '$') :
    (plain between).walk (doubleQuoted v).toList = some (plain bare, texts (doubleQuoted v).toList) := by
  have hchars : (doubleQuoted v).toList = '\x22' :: (v.toList.flatMap escapeDouble ++ ['\x22']) := by
    simp [doubleQuoted]
  have hread : (plain double).walk (v.toList.flatMap escapeDouble ++ ['\x22']) =
      some (plain bare, texts (v.toList.flatMap escapeDouble ++ ['\x22'])) := by
    rw [walk_append, walk_escapeDoubles_plain hv, Option.bind_some, texts_append]
    rfl
  rw [hchars, walk]
  simp [step, alone, next, opened?, isBreak, isBlank, isOperator, hread, texts]

/-- The list behind a command and `&&`. -/
def behindCommand (cd : Command) : List AndOr → List AndOr
  | [] => []
  | l :: ls => ⟨cd, (.and, l.first) :: l.rest⟩ :: ls

theorem commands_texts (hwalk : (plain between).walk a = some (plain bare, texts a))
    (h : commands? a = some [⟨cd, []⟩]) : tokensFrom between a = some cd ∧ cd ≠ [] ∧ isCommand cd = true := by
  have hsplit : split (texts a) = (a, []) := by
    simpa [split] using split_texts a []
  rw [commands?, hwalk, Option.bind_some, hsplit] at h
  simp only [ends, if_true, gather, Option.bind_eq_some_iff] at h
  obtain ⟨ts, hts, h⟩ := h
  split at h
  · cases h
  split at h
  · rename_i hne hcommand
    cases h
    exact ⟨hts, hne, hcommand⟩
  · cases h

theorem commands_behind (hwalk : (plain between).walk a = some (plain bare, texts a))
    (ha : commands? a = some [⟨cd, []⟩]) (hcs : commands? cs = some ls) (hne : ls ≠ []) :
    commands? (a ++ " && ".toList ++ cs ++ ['\n']) = some (behindCommand cd ls) := by
  obtain ⟨⟨m, ps⟩, hcs', h⟩ := Option.bind_eq_some_iff.1 hcs
  obtain ⟨hm, hls⟩ : m.ends = true ∧ gather (split ps).1 (split ps).2 = some ls := by
    simpa using h
  obtain ⟨hcd, hcd', hcommand⟩ := commands_texts hwalk ha
  have hjoint : (plain bare).walk " && ".toList =
      some (plain between, [.text [' '], .text [], .joint (.link .and), .text [' ']]) := by decide
  have hparts : (plain between).walk (a ++ " && ".toList ++ cs ++ ['\n']) = some (plain between,
      texts a ++ .text [' '] :: .text [] :: .joint (.link .and) :: .text [' '] :: (ps ++ [.joint .newline])) := by
    simp only [walk_append, hwalk, hjoint, hcs', walk_newline hm, Option.bind_some, Option.map_some]
    simp
  have htext : tokensFrom between (a ++ [' ']) = some cd := tokensFrom_blank_right hcd
  have hrest : gather (' ' :: (split ps).1) ((split ps).2 ++ [(.newline, [])]) = some ls := by
    rw [gather_newline, gather_congr (tokensFrom_blank_left _), hls]
  obtain ⟨l, ls, rfl⟩ := List.exists_cons_of_ne_nil hne
  rw [commands?, hparts, Option.bind_some, split_texts]
  simp [split, split_newline, ends, gather, htext, hrest, hcd', hcommand, Joint.attach, behindCommand]

/-- Whether a command succeeds behind those that were run before it. -/
abbrev Outcomes := List Command → Command → Bool

/-- How far joined commands were run. -/
structure Progress where
  /-- The commands that were run, in order. -/
  ran : List Command
  /-- Whether the last of them succeeded. -/
  succeeded : Bool
  /-- Whether a command was skipped behind it. -/
  skipped : Bool

section

variable (ok : Outcomes)

/-- Runs a command behind others. -/
def execute (ran : List Command) (c : Command) : Progress :=
  ⟨ran ++ [c], ok ran c, false⟩

namespace Progress

/-- Runs or skips a command that is joined to those before it. -/
def step (p : Progress) (x : Connective × Command) : Progress :=
  if p.succeeded = (x.1 = .and) then execute ok p.ran x.2 else { p with skipped := true }

/-- Under `set -e`, the last of the joined commands may not fail. -/
def stops (p : Progress) : Bool :=
  !p.succeeded && !p.skipped

end Progress

def AndOr.run (ran : List Command) (l : AndOr) : Progress :=
  l.rest.foldl (Progress.step ok) (execute ok ran l.first)

/-- The commands that are run, behind others, from a list. -/
def runList (ran : List Command) : List AndOr → List Command
  | [] => ran
  | l :: ls => if (l.run ok ran).stops then (l.run ok ran).ran else runList (l.run ok ran).ran ls

theorem prefix_step (p : Progress) (x : Connective × Command) : p.ran <+: (p.step ok x).ran := by
  unfold Progress.step
  split
  · exact List.prefix_append ..
  · exact List.prefix_refl _

theorem prefix_steps (p : Progress) (xs : List (Connective × Command)) :
    p.ran <+: (xs.foldl (Progress.step ok) p).ran := by
  induction xs generalizing p with
  | nil => exact List.prefix_refl _
  | cons x xs ih => exact (prefix_step ok p x).trans (ih (p.step ok x))

theorem prefix_run (ran : List Command) (l : AndOr) : ran ++ [l.first] <+: (l.run ok ran).ran :=
  prefix_steps ok (execute ok ran l.first) l.rest

theorem prefix_runList (ran : List Command) (ls : List AndOr) : ran <+: runList ok ran ls := by
  induction ls generalizing ran with
  | nil => exact List.prefix_refl _
  | cons l ls ih =>
    have hrun : ran <+: (l.run ok ran).ran := (List.prefix_append ..).trans (prefix_run ok ran l)
    unfold runList
    split
    · exact hrun
    · exact hrun.trans (ih _)

theorem prefix_runList_cons (ran : List Command) (l : AndOr) (ls : List AndOr) :
    (l.run ok ran).ran <+: runList ok ran (l :: ls) := by
  unfold runList
  split
  · exact List.prefix_refl _
  · exact prefix_runList ok _ ls

end

variable {ok : Outcomes} {p : Progress} {ran : List Command} {xs : List (Connective × Command)}

theorem steps_and (hfailed : p.succeeded = false) (hskipped : p.skipped = true) (h : ∀ x ∈ xs, x.1 = .and) :
    xs.foldl (Progress.step ok) p = p := by
  induction xs with
  | nil => rfl
  | cons x xs ih =>
    obtain ⟨hx, hxs⟩ := List.forall_mem_cons.1 h
    have hstep : p.step ok x = p := by
      rw [Progress.step, if_neg (by simp [hfailed, hx]), ← hskipped]
    rw [List.foldl_cons, hstep, ih hxs]

theorem length_steps_or (hfailed : p.succeeded = false) (h : ∃ x ∈ xs, x.1 ≠ .and) :
    p.ran.length < (xs.foldl (Progress.step ok) p).ran.length := by
  induction xs generalizing p with
  | nil => simp at h
  | cons x xs ih =>
    rw [List.foldl_cons]
    by_cases hx : x.1 = .and
    · have hstep : p.step ok x = { p with skipped := true } := by
        simp [Progress.step, hfailed, hx]
      have hxs : ∃ x ∈ xs, x.1 ≠ .and := by
        simpa [hx] using h
      rw [hstep]
      exact ih (p := { p with skipped := true }) hfailed hxs
    · have hstep : p.step ok x = execute ok p.ran x.2 := by
        simp [Progress.step, hfailed, hx]
      have hlen := (prefix_steps ok (execute ok p.ran x.2) xs).length_le
      rw [hstep]
      simp only [execute, List.length_append, List.length_singleton] at hlen ⊢
      omega

/-- If a command in front of `&&` fails, it is the only one that is run exactly if there is just one list behind it,
and nothing in it is joined by `||`. -/
theorem runList_behind (hcd : ok ran cd = false) (hne : ls ≠ []) :
    runList ok ran (behindCommand cd ls) = ran ++ [cd] ↔ ∃ l, ls = [l] ∧ ∀ x ∈ l.rest, x.1 = .and := by
  obtain ⟨l, ls, rfl⟩ := List.exists_cons_of_ne_nil hne
  have hrun : AndOr.run ok ran ⟨cd, (.and, l.first) :: l.rest⟩ =
      l.rest.foldl (Progress.step ok) ⟨ran ++ [cd], false, true⟩ := by
    simp [AndOr.run, execute, hcd, Progress.step]
  constructor
  · intro h
    have hlist : runList ok ran (⟨cd, (.and, l.first) :: l.rest⟩ :: ls) = ran ++ [cd] := h
    have hprefix := prefix_runList_cons ok ran ⟨cd, (.and, l.first) :: l.rest⟩ ls
    rw [hrun, hlist] at hprefix
    by_cases hall : ∀ x ∈ l.rest, x.1 = .and
    · rw [runList, hrun, steps_and rfl rfl hall] at hlist
      cases ls with
      | nil => exact ⟨l, rfl, hall⟩
      | cons l' ls =>
        have hrest : runList ok (ran ++ [cd]) (l' :: ls) = ran ++ [cd] := hlist
        have hlen := ((prefix_run ok (ran ++ [cd]) l').trans (prefix_runList_cons ok _ l' ls)).length_le
        rw [hrest] at hlen
        simp at hlen
    · have hlen : (ran ++ [cd]).length < (l.rest.foldl (Progress.step ok) ⟨ran ++ [cd], false, true⟩).ran.length :=
        length_steps_or (p := ⟨ran ++ [cd], false, true⟩) rfl (by simpa using hall)
      exact absurd hprefix.length_le (Nat.not_le.2 hlen)
  · rintro ⟨l', hl, hall⟩
    obtain ⟨rfl, rfl⟩ : l = l' ∧ ls = [] := by simpa using hl
    rw [behindCommand, runList, hrun, steps_and rfl rfl hall]
    simp [Progress.stops, runList]

end Provision.Shell
