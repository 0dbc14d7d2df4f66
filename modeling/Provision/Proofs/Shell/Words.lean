import Provision.Shell.Quoting

/-!
# Reading the words of a shell text

`tokens` reads a text as the shell does: words, which may have quotes in them, between blanks and operators. A word
is kept without its quotes, with a note whether the shell replaces anything in it. There are no comments and no
here-documents in such a text. A quoted value is read as one word, or as a part of one, whatever it holds
(`tokensFrom_single`, `tokensFrom_double`), and so is a text of characters without a meaning (`tokensFrom_plain`). A
line is read on its own (`tokens_line`).
-/

namespace Provision.Shell

/-- A word without its quotes, and whether the shell replaces anything in it. -/
structure Word where
  text : List Char := []
  expands : Bool := false
  deriving DecidableEq, Repr

/-- A word that the shell takes as it stands. -/
def Word.plain (text : String) : Word :=
  { text := text.toList }

inductive Token where
  | word (w : Word)
  | operator (c : Char)
  deriving DecidableEq, Repr

def isBlank (c : Char) : Bool :=
  c = ' ' || c = '\t'

/-- The characters that are operators, or a part of one. A newline ends a command as well. -/
def isOperator (c : Char) : Bool :=
  ['\n', ';', '&', '|', '(', ')', '<', '>'].contains c

/-- The characters that end a word. -/
def isBreak (c : Char) : Bool :=
  isBlank c || isOperator c

/-- Variables and commands are replaced in double quotes, too. -/
def expandsQuoted (c : Char) : Bool :=
  c = '$' || c = '\x60'

/-- Outside of quotes, there are also patterns for names of files. -/
def expandsBare (c : Char) : Bool :=
  expandsQuoted c || ['*', '?', '[', '~'].contains c

/-- The characters that a backslash quotes in double quotes; in front of others it stands for itself. -/
def isGuardable (c : Char) : Bool :=
  expandsQuoted c || c = '\x22' || c = '\\'

/-- Where the reader stands. -/
inductive Position where
  /-- Between two words. -/
  | between
  /-- In a word, outside of quotes. -/
  | bare
  /-- Behind a backslash outside of quotes, which may be the first of its word. -/
  | behind (inWord : Bool)
  | single
  | double
  /-- Behind a backslash in double quotes. -/
  | guarded
  deriving DecidableEq, Repr

namespace Position

/-- Where a character leads that stands for nothing itself. -/
def opened? (inWord : Bool) (c : Char) : Option Position :=
  if c = '\x27' then some single
  else if c = '\x22' then some double
  else if c = '\\' then some (behind inWord)
  else none

def next : Position → Char → Position
  | between, c => if isBreak c then between else (opened? false c).getD bare
  | bare, c => if isBreak c then between else (opened? true c).getD bare
  | behind inWord, c => if c = '\n' && !inWord then between else bare
  | single, c => if c = '\x27' then bare else single
  | double, c => if c = '\x22' then bare else if c = '\\' then guarded else double
  | guarded, _ => double

/-- Puts more characters in front of the first word. -/
def prepend (text : List Char) (expands : Bool) : List Token → List Token
  | .word w :: ts => .word ⟨text ++ w.text, expands || w.expands⟩ :: ts
  | ts => ts

/-- A character outside of quotes, before what is read behind it. -/
def emitBare (c : Char) (ts : List Token) : List Token :=
  if isBlank c then ts
  else if isOperator c then .operator c :: ts
  else if (opened? true c).isSome then ts
  else prepend [c] (expandsBare c) ts

/-- What is read from a character on, from what is read behind it. The first word goes on there, unless the reader
stands between two. -/
def emit : Position → Char → List Token → List Token
  | between, c, ts => emitBare c ts
  | bare, c, ts => if isBreak c then .word {} :: emitBare c ts else emitBare c ts
  | behind _, c, ts => if c = '\n' then ts else prepend [c] false ts
  | single, c, ts => if c = '\x27' then ts else prepend [c] false ts
  | double, c, ts => if c = '\x22' || c = '\\' then ts else prepend [c] (expandsQuoted c) ts
  | guarded, c, ts =>
    if c = '\n' then ts else prepend (if isGuardable c then [c] else ['\\', c]) false ts

/-- What is read at the end of a text, which is not in quotes. -/
def finish? : Position → Option (List Token)
  | between => some []
  | bare => some [.word {}]
  | behind _ | single | double | guarded => none

end Position

open Position

def tokensFrom (q : Position) : List Char → Option (List Token)
  | [] => q.finish?
  | c :: cs => (tokensFrom (q.next c) cs).map (q.emit c)

/-- The words and operators of a text. -/
def tokens (s : String) : Option (List Token) :=
  tokensFrom between s.toList

example : tokens "a='b c'\"$d\" | e\\ f" =
    some [.word ⟨"a=b c$d".toList, true⟩, .operator '|', .word (.plain "e f")] := by decide

variable {c : Char} {cs ds text more rest : List Char} {e e' : Bool} {q : Position} {ts us : List Token}
  {o : Option (List Token)}

namespace Position

/-- Where the reader stands behind a text. -/
def after (q : Position) (cs : List Char) : Position :=
  cs.foldl next q

/-- What is read from a text on, from what is read behind it. -/
def emits : Position → List Char → List Token → List Token
  | _, [], ts => ts
  | q, c :: cs, ts => q.emit c (emits (q.next c) cs ts)

end Position

theorem tokensFrom_append (q : Position) (cs ds : List Char) :
    tokensFrom q (cs ++ ds) = (tokensFrom (q.after cs) ds).map (q.emits cs) := by
  induction cs generalizing q with
  | nil => exact Option.map_id'.symm
  | cons c cs ih =>
    rw [List.cons_append, tokensFrom, ih, Option.map_map]
    rfl

@[simp] theorem prepend_nil (ts : List Token) : prepend [] false ts = ts := by
  rcases ts with _ | ⟨⟨w⟩ | c, ts⟩ <;> rfl

theorem prepend_prepend (ts : List Token) :
    prepend text e (prepend more e' ts) = prepend (text ++ more) (e || e') ts := by
  rcases ts with _ | ⟨⟨w⟩ | c, ts⟩
  · rfl
  · simp only [prepend, List.append_assoc, Bool.or_assoc]
  · rfl

theorem prepend_append_operator (ts us : List Token) :
    prepend text e (ts ++ .operator c :: us) = prepend text e ts ++ .operator c :: us := by
  rcases ts with _ | ⟨⟨w⟩ | d, ts⟩ <;> rfl

theorem emits_append (q : Position) (cs ds : List Char) :
    q.emits (cs ++ ds) = q.emits cs ∘ (q.after cs).emits ds := by
  induction cs generalizing q with
  | nil => rfl
  | cons c cs ih => exact congrArg (q.emit c ∘ ·) (ih (q.next c))

/-! ### Quoted values -/

theorem read_escapeSingle (c : Char) :
    single.after (escapeSingle c) = single ∧ single.emits (escapeSingle c) = prepend [c] false := by
  unfold escapeSingle
  split
  · rename_i hc
    subst hc
    exact ⟨rfl, rfl⟩
  · rename_i hc
    exact ⟨if_neg hc, funext fun ts => if_neg hc⟩

theorem read_escapeDouble (c : Char) :
    double.after (escapeDouble c) = double ∧ double.emits (escapeDouble c) = prepend [c] (c = '$') := by
  unfold escapeDouble
  split
  · rename_i hc
    simp only [Bool.or_eq_true, decide_eq_true_eq] at hc
    rcases hc with (rfl | rfl) | rfl <;> exact ⟨rfl, rfl⟩
  · rename_i hc
    simp only [Bool.or_eq_true, decide_eq_true_eq, not_or] at hc
    obtain ⟨⟨hslash, hquote⟩, hback⟩ := hc
    refine ⟨(if_neg hquote).trans (if_neg hslash), funext fun ts => ?_⟩
    have hplain : ¬ ((c = '\x22' || c = '\\') = true) := by simp [hquote, hslash]
    have hexpands : expandsQuoted c = decide (c = '$') := by simp [expandsQuoted, hback]
    exact (if_neg hplain).trans (by rw [hexpands]; rfl)

theorem read_flatMap {f : Char → List Char} {p : Char → Bool}
    (h : ∀ c, q.after (f c) = q ∧ q.emits (f c) = prepend [c] (p c)) (cs : List Char) :
    q.after (cs.flatMap f) = q ∧ q.emits (cs.flatMap f) = prepend cs (cs.any p) := by
  induction cs with
  | nil => exact ⟨rfl, funext fun ts => (prepend_nil ts).symm⟩
  | cons c cs ih =>
    obtain ⟨hafter, hemits⟩ := ih
    rw [List.flatMap_cons, emits_append, (h c).2, (h c).1, hemits, after, List.foldl_append]
    refine ⟨?_, funext fun ts => prepend_prepend ts⟩
    rw [← after, ← after, (h c).1, hafter]

theorem tokensFrom_single (hq : q = between ∨ q = bare) (v : String) (rest : List Char) :
    tokensFrom q ((singleQuoted v).toList ++ rest) = (tokensFrom bare rest).map (prepend v.toList false) := by
  obtain ⟨hafter, hemits⟩ := read_flatMap read_escapeSingle v.toList
  have hopen : q.next '\x27' = single ∧ q.emit '\x27' = id := by
    rcases hq with rfl | rfl <;> exact ⟨rfl, rfl⟩
  have hnone : v.toList.any (fun _ => false) = false := by simp
  have hclose : tokensFrom single ('\x27' :: rest) = tokensFrom bare rest := Option.map_id'
  rw [singleQuoted, String.toList_ofList, List.cons_append, List.cons_append, List.append_assoc, tokensFrom, hopen.1,
    hopen.2, Option.map_id, id, tokensFrom_append, hafter, hemits, hnone, List.singleton_append, hclose]

theorem tokensFrom_double (hq : q = between ∨ q = bare) (v : String) (rest : List Char) :
    tokensFrom q ((doubleQuoted v).toList ++ rest) =
      (tokensFrom bare rest).map (prepend v.toList (v.toList.any (· = '$'))) := by
  obtain ⟨hafter, hemits⟩ := read_flatMap read_escapeDouble v.toList
  have hopen : q.next '\x22' = double ∧ q.emit '\x22' = id := by
    rcases hq with rfl | rfl <;> exact ⟨rfl, rfl⟩
  have hclose : tokensFrom double ('\x22' :: rest) = tokensFrom bare rest := Option.map_id'
  rw [doubleQuoted, String.toList_ofList, List.cons_append, List.cons_append, List.append_assoc, tokensFrom, hopen.1,
    hopen.2, Option.map_id, id, tokensFrom_append, hafter, hemits, List.singleton_append, hclose]

/-- The word ends before the text. -/
def Ends (rest : List Char) : Prop :=
  ∀ c ∈ rest.head?, isBreak c = true

instance (rest : List Char) : Decidable (Ends rest) :=
  decidable_of_iff (rest.head?.all isBreak = true) (Option.all_eq_true ..)

theorem tokensFrom_bare (h : Ends rest) :
    tokensFrom bare rest = (tokensFrom between rest).map (.word {} :: ·) := by
  cases rest with
  | nil => rfl
  | cons c rest =>
    have hc : isBreak c = true := h c rfl
    have hnext : bare.next c = between ∧ between.next c = between := ⟨if_pos hc, if_pos hc⟩
    have hemit : bare.emit c = (.word {} :: ·) ∘ between.emit c := funext fun ts => if_pos hc
    rw [tokensFrom, tokensFrom, hnext.1, hnext.2, hemit, Option.map_map]

/-- The shell takes the character as it stands, in a word and in double quotes. -/
def isPlain (c : Char) : Bool :=
  !isBreak c && (opened? true c).isNone && !expandsBare c

/-- The characters with a meaning somewhere. -/
def specials : List Char :=
  [' ', '\t', '\n', ';', '&', '|', '(', ')', '<', '>', '\x27', '\x22', '\\', '$', '\x60', '*', '?', '[', '~']

theorem isPlain_of_not_mem (hc : c ∉ specials) : isPlain c = true := by
  simp only [specials, List.mem_cons, List.not_mem_nil, or_false, not_or] at hc
  simp [isPlain, isBreak, isBlank, isOperator, opened?, expandsBare, expandsQuoted, hc]

theorem read_isPlain (hc : isPlain c = true) :
    between.next c = bare ∧ bare.next c = bare ∧ double.next c = double ∧
      between.emit c = prepend [c] false ∧ bare.emit c = prepend [c] false ∧ double.emit c = prepend [c] false := by
  simp only [isPlain, Bool.and_eq_true, Bool.not_eq_true', Option.isNone_iff_eq_none] at hc
  obtain ⟨⟨hbreak, hopened⟩, hexpands⟩ := hc
  have hquotes : c ≠ '\x27' ∧ c ≠ '\x22' ∧ c ≠ '\\' := by
    refine ⟨?_, ?_, ?_⟩ <;> rintro rfl <;> cases hopened
  have hopened' : opened? false c = none := by
    simp [opened?, hquotes]
  have hoperator : isBlank c = false ∧ isOperator c = false := by
    simpa [isBreak] using hbreak
  have hquoted : expandsQuoted c = false := by
    simp only [expandsBare, Bool.or_eq_false_iff] at hexpands
    exact hexpands.1
  refine ⟨?_, ?_, ?_, funext fun ts => ?_, funext fun ts => ?_, funext fun ts => ?_⟩ <;>
    simp [next, emit, emitBare, hbreak, hopened, hopened', hexpands, hoperator, hquotes, hquoted]

theorem read_plain (hq : q = bare ∨ q = double) (hcs : ∀ c ∈ cs, isPlain c = true) :
    q.after cs = q ∧ q.emits cs = prepend cs false := by
  induction cs with
  | nil => exact ⟨rfl, funext fun ts => (prepend_nil ts).symm⟩
  | cons c cs ih =>
    obtain ⟨hc, hcs⟩ := List.forall_mem_cons.1 hcs
    obtain ⟨hafter, hemits⟩ := ih hcs
    have hread : q.next c = q ∧ q.emit c = prepend [c] false := by
      obtain ⟨-, hbare, hdouble, -, hemit, hemit'⟩ := read_isPlain hc
      rcases hq with rfl | rfl
      · exact ⟨hbare, hemit⟩
      · exact ⟨hdouble, hemit'⟩
    refine ⟨?_, funext fun ts => ?_⟩
    · rw [after, List.foldl_cons, hread.1]
      exact hafter
    · rw [emits, hread.1, hread.2, hemits, prepend_prepend]
      rfl

theorem tokensFrom_plain (hq : q = between ∧ cs ≠ [] ∨ q = bare) (hcs : ∀ c ∈ cs, isPlain c = true)
    (rest : List Char) : tokensFrom q (cs ++ rest) = (tokensFrom bare rest).map (prepend cs false) := by
  rcases hq with ⟨rfl, hne⟩ | rfl
  · obtain ⟨c, cs, rfl⟩ := List.exists_cons_of_ne_nil hne
    obtain ⟨hc, hcs⟩ := List.forall_mem_cons.1 hcs
    obtain ⟨hafter, hemits⟩ := read_plain (.inl rfl) hcs
    obtain ⟨hnext, -, -, hemit, -⟩ := read_isPlain hc
    rw [List.cons_append, tokensFrom, hnext, hemit, tokensFrom_append, hafter, hemits, Option.map_map]
    exact congrArg (Option.map · _) (funext fun ts => prepend_prepend ts)
  · obtain ⟨hafter, hemits⟩ := read_plain (.inl rfl) hcs
    rw [tokensFrom_append, hafter, hemits]

theorem tokensFrom_word (hne : cs ≠ []) (hcs : ∀ c ∈ cs, isPlain c = true) (h : Ends rest) :
    tokensFrom between (cs ++ rest) = (tokensFrom between rest).map (.word ⟨cs, false⟩ :: ·) := by
  rw [tokensFrom_plain (.inl ⟨rfl, hne⟩) hcs, tokensFrom_bare h, Option.map_map]
  refine congrArg (Option.map · _) (funext fun ts => ?_)
  simp [prepend]

/-- A value in single quotes is one word, of which the shell takes every character as it stands. -/
theorem tokensFrom_singleQuoted (h : Ends rest) (v : String) :
    tokensFrom between ((singleQuoted v).toList ++ rest) =
      (tokensFrom between rest).map (.word (.plain v) :: ·) := by
  have hword : prepend v.toList false ∘ (.word {} :: ·) = (.word (.plain v) :: ·) := by
    funext ts
    simp [prepend, Word.plain]
  rw [tokensFrom_single (.inl rfl), tokensFrom_bare h, Option.map_map, hword]

theorem emitBare_append_operator (c d : Char) (ts us : List Token) :
    emitBare c (ts ++ .operator d :: us) = emitBare c ts ++ .operator d :: us := by
  simp only [emitBare, prepend_append_operator]
  split
  · rfl
  split
  · rfl
  split <;> rfl

theorem emit_append_operator (q : Position) (c d : Char) (ts us : List Token) :
    q.emit c (ts ++ .operator d :: us) = q.emit c ts ++ .operator d :: us := by
  cases q with
  | between => exact emitBare_append_operator c d ts us
  | _ =>
    simp only [emit, emitBare_append_operator, prepend_append_operator]
    split <;> rfl

theorem tokensFrom_newline (h : tokensFrom q cs = some ts) (rest : List Char) :
    tokensFrom q (cs ++ '\n' :: rest) = (tokensFrom between rest).map (ts ++ .operator '\n' :: ·) := by
  induction cs generalizing q ts with
  | nil => cases q <;> cases h <;> rfl
  | cons c cs ih =>
    obtain ⟨us, hus, rfl⟩ := Option.map_eq_some_iff.1 h
    rw [List.cons_append, tokensFrom, ih hus, Option.map_map]
    exact congrArg (Option.map · _) (funext fun ts => emit_append_operator _ _ _ _ _)

theorem tokens_line {s t : String} (h : tokens s = some ts) :
    tokens (s ++ "\n" ++ t) = (tokens t).map (ts ++ .operator '\n' :: ·) := by
  have hchars : (s ++ "\n" ++ t).toList = s.toList ++ '\n' :: t.toList := by
    rw [String.toList_append, String.toList_append, List.append_assoc]
    rfl
  rw [tokens, hchars]
  exact tokensFrom_newline h _

theorem exists_tokens_lines {ls : List String} (h : ∀ l ∈ ls, ∃ ts, tokens l = some ts) :
    ∃ ts, tokens ("\n".intercalate ls) = some ts := by
  induction ls with
  | nil => exact ⟨[], rfl⟩
  | cons l ls ih =>
    obtain ⟨⟨ts, hts⟩, hls⟩ := List.forall_mem_cons.1 h
    cases ls with
    | nil => exact ⟨ts, by rwa [String.intercalate_singleton]⟩
    | cons l' ls =>
      obtain ⟨us, hus⟩ := ih hls
      rw [String.intercalate_cons_cons, tokens_line hts, hus]
      exact ⟨_, rfl⟩

end Provision.Shell
