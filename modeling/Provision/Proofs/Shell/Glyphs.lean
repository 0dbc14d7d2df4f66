import Provision.Proofs.Shell.Words

/-!
# Quoted values, character by character

A word is read as its characters, each with the quotes that it was found in, and what stands behind the word is handed
on (`word?`). That is the first word of the text as `tokens` reads it (`tokensFrom_of_wordFrom`). The same is done for
a part of a word in quotes, up to the character that closes them (`quoted?`).

A value in single quotes is one word that ends with its last character, whatever the value holds, and nothing in it is
replaced (`singleQuoted_word`). The double quotes around a value close with its last character, every `$` of the value
keeps its meaning, and every backquote is escaped (`doubleQuoted_closes`).
-/

namespace Provision.Shell

/-- How a character of a word was found. -/
inductive Manner where
  | bare
  | single
  | double
  /-- Behind a backslash, which is not a part of the word. -/
  | escaped
  deriving DecidableEq, Repr

structure Glyph where
  char : Char
  manner : Manner
  deriving DecidableEq, Repr

/-- Whether the shell replaces something at the character. -/
def Glyph.expands (g : Glyph) : Bool :=
  match g.manner with
  | .bare => expandsBare g.char
  | .double => expandsQuoted g.char
  | .single | .escaped => false

/-- The word of the characters. -/
def Word.ofGlyphs (gs : List Glyph) : Word :=
  ⟨gs.map Glyph.char, gs.any Glyph.expands⟩

namespace Position

/-- What a character adds to the word. A backslash in double quotes waits for the character behind it. -/
def glyphs : Position → Char → List Glyph
  | between, c | bare, c => if (opened? true c).isSome then [] else [⟨c, .bare⟩]
  | behind _, c => if c = '\n' then [] else [⟨c, .escaped⟩]
  | single, c => if c = '\x27' then [] else [⟨c, .single⟩]
  | double, c => if c = '\x22' || c = '\\' then [] else [⟨c, .double⟩]
  | guarded, c =>
    if c = '\n' then [] else if isGuardable c then [⟨c, .escaped⟩] else [⟨'\\', .double⟩, ⟨c, .double⟩]

end Position

open Position

/-- Reads on to the end of the word, and gives its characters with what stands behind it. -/
def wordFrom (q : Position) : List Char → Option (List Glyph × List Char)
  | [] => if q = bare then some ([], []) else none
  | c :: cs =>
    if isBreak c && q = between then none
    else if isBreak c && q = bare then some ([], c :: cs)
    else (wordFrom (q.next c) cs).map fun r => (q.glyphs c ++ r.1, r.2)

/-- The word that a text begins with. -/
def word? : List Char → Option (List Glyph × List Char) :=
  wordFrom between

/-- Reads on to the end of the quotes. -/
def quotedFrom (q : Position) : List Char → Option (List Glyph × List Char)
  | [] => none
  | c :: cs =>
    if q.next c = bare then some ([], cs)
    else (quotedFrom (q.next c) cs).map fun r => (q.glyphs c ++ r.1, r.2)

/-- The quotes that a text begins with. -/
def quoted? : List Char → Option (List Glyph × List Char)
  | [] => none
  | c :: cs =>
    if c = '\x27' then quotedFrom single cs
    else if c = '\x22' then quotedFrom double cs
    else none

variable {c : Char} {cs rest : List Char} {q : Position} {gs : List Glyph}

theorem prepend_ofGlyphs (gs gs' : List Glyph) (ts : List Token) :
    prepend (gs.map Glyph.char) (gs.any Glyph.expands) (.word (.ofGlyphs gs') :: ts) =
      .word (.ofGlyphs (gs ++ gs')) :: ts := by
  simp [prepend, Word.ofGlyphs]

theorem emit_ofGlyphs (hc : isBreak c = true → q ≠ between ∧ q ≠ bare) (ts : List Token) :
    q.emit c (.word (.ofGlyphs gs) :: ts) = .word (.ofGlyphs (q.glyphs c ++ gs)) :: ts := by
  rw [← prepend_ofGlyphs]
  cases q with
  | between | bare =>
    have hbreak : isBreak c = false := by simpa using hc
    obtain ⟨hblank, hoperator⟩ : isBlank c = false ∧ isOperator c = false := by simpa [isBreak] using hbreak
    simp only [emit, emitBare, glyphs, hbreak, hblank, hoperator, Bool.false_eq_true, if_false]
    split <;> simp [Glyph.expands]
  | behind | single | double =>
    simp only [emit, glyphs]
    split <;> simp [Glyph.expands]
  | guarded =>
    simp only [emit, glyphs]
    split
    · simp
    split
    · simp [Glyph.expands]
    · rename_i hguard
      have hquoted : expandsQuoted c = false := by
        simp only [isGuardable, Bool.or_eq_true, not_or, Bool.not_eq_true] at hguard
        exact hguard.1.1
      have hslash : expandsQuoted '\\' = false := by decide
      simp [Glyph.expands, hquoted, hslash]

theorem tokensFrom_of_wordFrom (h : wordFrom q cs = some (gs, rest)) :
    tokensFrom q cs = (tokensFrom between rest).map (.word (.ofGlyphs gs) :: ·) := by
  induction cs generalizing q gs with
  | nil =>
    obtain ⟨rfl, hr⟩ : q = bare ∧ ([], []) = (gs, rest) := by simpa [wordFrom] using h
    cases hr
    rfl
  | cons c cs ih =>
    rw [wordFrom] at h
    split at h
    · cases h
    split at h
    · rename_i hbreak
      obtain ⟨hc, rfl⟩ : isBreak c = true ∧ q = bare := by simpa using hbreak
      cases h
      exact tokensFrom_bare fun d hd => by cases hd; exact hc
    · rename_i hbetween hbare
      obtain ⟨⟨gs', rest'⟩, hread, hr⟩ := Option.map_eq_some_iff.1 h
      cases hr
      rw [tokensFrom, ih hread, Option.map_map]
      refine congrArg (Option.map · _) (funext fun ts => emit_ofGlyphs ?_ ts)
      intro hbreak
      simpa [hbreak] using And.intro hbetween hbare

/-! ### Quotes -/

/-- The end of quotes adds nothing to the word, and before it the reader stays in them. -/
theorem next_quotes (hq : q = single ∨ q = double ∨ q = guarded) (c : Char) :
    q.next c = bare ∧ q.glyphs c = [] ∨ q.next c = single ∨ q.next c = double ∨ q.next c = guarded := by
  rcases hq with rfl | rfl | rfl
  · by_cases hc : c = '\x27' <;> simp [next, glyphs, hc]
  · by_cases hc : c = '\x22'
    · simp [next, glyphs, hc]
    · by_cases hslash : c = '\\' <;> simp [next, hc, hslash]
  · simp [next]

theorem wordFrom_of_quotedFrom (hq : q = single ∨ q = double ∨ q = guarded)
    (h : quotedFrom q cs = some (gs, rest)) :
    wordFrom q cs = (wordFrom bare rest).map fun r => (gs ++ r.1, r.2) := by
  induction cs generalizing q gs with
  | nil => cases h
  | cons c cs ih =>
    have hword : wordFrom q (c :: cs) = (wordFrom (q.next c) cs).map fun r => (q.glyphs c ++ r.1, r.2) := by
      rcases hq with rfl | rfl | rfl <;> simp [wordFrom]
    rw [quotedFrom] at h
    rw [hword]
    rcases next_quotes hq c with ⟨hnext, hglyphs⟩ | hq'
    · rw [if_pos hnext] at h
      cases h
      rw [hnext, hglyphs]
    · have hnext : q.next c ≠ bare := by
        rcases hq' with hq' | hq' | hq' <;> simp [hq']
      rw [if_neg hnext] at h
      obtain ⟨⟨gs', rest'⟩, hread, hr⟩ := Option.map_eq_some_iff.1 h
      cases hr
      rw [ih hq' hread, Option.map_map]
      simp [Function.comp_def]

theorem wordFrom_of_quoted (hq : q = between ∨ q = bare) (h : quoted? cs = some (gs, rest)) :
    wordFrom q cs = (wordFrom bare rest).map fun r => (gs ++ r.1, r.2) := by
  cases cs with
  | nil => cases h
  | cons c cs =>
    rw [quoted?] at h
    split at h
    · rename_i hc
      subst hc
      have hopen : wordFrom q ('\x27' :: cs) = wordFrom single cs := by
        rcases hq with rfl | rfl <;> exact Option.map_id'
      rw [hopen, wordFrom_of_quotedFrom (.inl rfl) h]
    split at h
    · rename_i hc
      subst hc
      have hopen : wordFrom q ('\x22' :: cs) = wordFrom double cs := by
        rcases hq with rfl | rfl <;> exact Option.map_id'
      rw [hopen, wordFrom_of_quotedFrom (.inr (.inl rfl)) h]
    · cases h

theorem wordFrom_ends (h : Ends rest) : wordFrom bare rest = some ([], rest) := by
  cases rest with
  | nil => rfl
  | cons c rest =>
    have hc : isBreak c = true := h c rfl
    simp [wordFrom, hc]

/-- An apostrophe stands in double quotes, where it is as plain as the rest of the value in single ones. -/
def singleGlyph (c : Char) : Glyph :=
  ⟨c, if c = '\x27' then .double else .single⟩

theorem wordFrom_escapeSingle (v : List Char) (rest : List Char) :
    wordFrom single (v.flatMap escapeSingle ++ '\x27' :: rest) =
      (wordFrom bare rest).map fun r => (v.map singleGlyph ++ r.1, r.2) := by
  induction v with
  | nil => rfl
  | cons c v ih =>
    rw [List.flatMap_cons, List.append_assoc]
    by_cases hc : c = '\x27'
    · subst hc
      have hread (ds : List Char) : wordFrom single (escapeSingle '\x27' ++ ds) =
          (wordFrom single ds).map fun r => (singleGlyph '\x27' :: r.1, r.2) := by
        simp [escapeSingle, wordFrom, next, opened?, glyphs, isBreak, isBlank, isOperator, singleGlyph,
          Function.comp_def]
      rw [hread, ih, Option.map_map]
      rfl
    · have hread (ds : List Char) : wordFrom single (escapeSingle c ++ ds) =
          (wordFrom single ds).map fun r => (singleGlyph c :: r.1, r.2) := by
        simp [escapeSingle, wordFrom, next, glyphs, singleGlyph, hc]
      rw [hread, ih, Option.map_map]
      rfl

theorem expands_singleGlyph (c : Char) : (singleGlyph c).expands = false := by
  unfold singleGlyph
  split
  · rename_i hc
    subst hc
    rfl
  · rfl

/-- A value in single quotes, before a text that ends a word, is one word. It ends with the quotes, its characters are
those of the value, and the shell replaces nothing in it. -/
theorem singleQuoted_word (v : String) (h : Ends rest) :
    ∃ gs, word? ((singleQuoted v).toList ++ rest) = some (gs, rest) ∧ gs.map Glyph.char = v.toList ∧
      (∀ g ∈ gs, g.expands = false) ∧
      tokensFrom between ((singleQuoted v).toList ++ rest) =
        (tokensFrom between rest).map (.word (.plain v) :: ·) := by
  have hopen (ds : List Char) : wordFrom between ('\x27' :: ds) = wordFrom single ds := Option.map_id'
  have hword : word? ((singleQuoted v).toList ++ rest) = some (v.toList.map singleGlyph, rest) := by
    rw [word?, singleQuoted, String.toList_ofList, List.cons_append, List.cons_append, List.append_assoc, hopen,
      List.singleton_append, wordFrom_escapeSingle, wordFrom_ends h]
    simp
  have hchars : (v.toList.map singleGlyph).map Glyph.char = v.toList := by
    simp [singleGlyph, Function.comp_def]
  have hplain : ∀ g ∈ v.toList.map singleGlyph, g.expands = false := by
    simp [expands_singleGlyph]
  refine ⟨_, hword, hchars, hplain, ?_⟩
  have hglyphs : Word.ofGlyphs (v.toList.map singleGlyph) = .plain v := by
    rw [Word.ofGlyphs, hchars, Word.plain, List.any_eq_false.2 (by simpa using hplain)]
  rw [tokensFrom_of_wordFrom hword, hglyphs]

theorem singleQuoted_word_hard :
    Ends "; rm".toList ∧
    ∃ gs, word? ((singleQuoted "it's $HOME\\ \x60id\x60\n\x22").toList ++ "; rm".toList) =
        some (gs, "; rm".toList) ∧
      gs.map Glyph.char = "it's $HOME\\ \x60id\x60\n\x22".toList ∧ (∀ g ∈ gs, g.expands = false) ∧
      tokensFrom between ((singleQuoted "it's $HOME\\ \x60id\x60\n\x22").toList ++ "; rm".toList) =
        (tokensFrom between "; rm".toList).map
          (.word (.plain "it's $HOME\\ \x60id\x60\n\x22") :: ·) :=
  have hends : Ends "; rm".toList := by decide
  ⟨hends, singleQuoted_word _ hends⟩

/-- The characters with a backslash before each `c`. -/
def backslashed (c : Char) (cs : List Char) : List Char :=
  cs.flatMap fun d => if d = c then ['\\', d] else [d]

/-- One pass does what three do, one for each character that keeps its meaning in double quotes. Backslashes have to
be the first of them, since the other passes add some. -/
theorem doubleQuoted_eq_passes (v : String) : doubleQuoted v = String.ofList
    ('\x22' :: backslashed '\x60' (backslashed '\x22' (backslashed '\\' v.toList)) ++ ['\x22']) := by
  have hpasses (cs : List Char) :
      cs.flatMap escapeDouble = backslashed '\x60' (backslashed '\x22' (backslashed '\\' cs)) := by
    simp only [backslashed, List.flatMap_assoc]
    refine congrArg (cs.flatMap ·) (funext fun c => ?_)
    by_cases hslash : c = '\\'
    · subst hslash
      rfl
    · by_cases hquote : c = '\x22'
      · subst hquote
        rfl
      · simp [escapeDouble, hslash, hquote]
  rw [doubleQuoted, hpasses]

/-- Only the characters that a backslash stands before lose their meaning. -/
def doubleGlyph (c : Char) : Glyph :=
  ⟨c, if c = '\\' || c = '\x22' || c = '\x60' then .escaped else .double⟩

theorem quotedFrom_escapeDouble (v : List Char) (rest : List Char) :
    quotedFrom double (v.flatMap escapeDouble ++ '\x22' :: rest) = some (v.map doubleGlyph, rest) := by
  induction v with
  | nil => rfl
  | cons c v ih =>
    have hread (ds : List Char) : quotedFrom double (escapeDouble c ++ ds) =
        (quotedFrom double ds).map fun r => (doubleGlyph c :: r.1, r.2) := by
      by_cases hc : (c = '\\' || c = '\x22' || c = '\x60') = true
      · have hguard : c ≠ '\n' ∧ isGuardable c = true := by
          simp only [Bool.or_eq_true, decide_eq_true_eq] at hc
          rcases hc with (rfl | rfl) | rfl <;> decide
        simp [escapeDouble, doubleGlyph, hc, quotedFrom, next, glyphs, hguard, Function.comp_def]
      · have hplain : (c ≠ '\\' ∧ c ≠ '\x22') ∧ c ≠ '\x60' := by
          simpa only [Bool.or_eq_true, decide_eq_true_eq, not_or] using hc
        simp [escapeDouble, doubleGlyph, quotedFrom, next, glyphs, hplain]
    rw [List.flatMap_cons, List.append_assoc, hread, ih]
    rfl

theorem manner_doubleGlyph (c : Char) :
    (c = '$' → (doubleGlyph c).manner = .double) ∧ (c = '\x60' → (doubleGlyph c).manner = .escaped) := by
  constructor <;> rintro rfl <;> rfl

theorem quoted_doubleQuoted (v : String) (rest : List Char) :
    quoted? ((doubleQuoted v).toList ++ rest) = some (v.toList.map doubleGlyph, rest) := by
  rw [doubleQuoted, String.toList_ofList, List.cons_append, List.cons_append, List.append_assoc,
    List.singleton_append]
  exact quotedFrom_escapeDouble v.toList rest

/-- The double quotes around a value close with the last character, whatever stands behind it. What is read in them is
the value; its `$` are not escaped, so that variables are replaced, and its backquotes are, so that no command is. -/
theorem doubleQuoted_closes (v : String) (rest : List Char) :
    ∃ gs, quoted? ((doubleQuoted v).toList ++ rest) = some (gs, rest) ∧ gs.map Glyph.char = v.toList ∧
      (∀ g ∈ gs, g.char = '$' → g.manner = .double) ∧ ∀ g ∈ gs, g.char = '\x60' → g.manner = .escaped := by
  refine ⟨_, quoted_doubleQuoted v rest, ?_, ?_, ?_⟩
  · simp [doubleGlyph, Function.comp_def]
  all_goals
    intro g hg hchar
    obtain ⟨c, -, rfl⟩ := List.mem_map.1 hg
  · exact (manner_doubleGlyph c).1 hchar
  · exact (manner_doubleGlyph c).2 hchar

end Provision.Shell
