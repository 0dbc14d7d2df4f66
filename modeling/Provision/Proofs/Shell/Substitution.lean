import Provision.Shell.Sed

/-!
# Programs that substitute

The stream editor cuts a substitution at each delimiter that no backslash protects (`cut`). A part that holds no such
delimiter and does not end in a backslash that protects something stays whole (`cut_program`). Parts that are escaped
stay whole, and are read as the text that they were made from (`whole_escape`, `read_escape`). Parts that are only
protected differ from their text by the backslashes before its bare delimiters (`protect_eq_intercalate`), which can be
dropped again (`unprotect_protect`).

A line break that no backslash protects ends a command. So a program of whole parts is read as one command exactly if no
such line break is in it (`command?_program`), and escaping keeps the line breaks of a text as they are
(`breaks_escape`).
-/

namespace Provision.Sed

variable {d c : Char} {escaped : Bool} {specials cs ds p r rest : List Char}

/-- Whether a backslash protects what follows, behind a character. -/
def escapes (escaped : Bool) (c : Char) : Bool :=
  c = '\\' && !escaped

/-- Whether a backslash at the end of the text protects what follows. -/
def dangles (escaped : Bool) (cs : List Char) : Bool :=
  cs.foldl escapes escaped

/-- The character begins the first of the pieces. -/
def onto (c : Char) : List (List Char) → List (List Char)
  | [] => [[c]]
  | w :: ws => (c :: w) :: ws

/-- The pieces of a text between the delimiters that no backslash protects. -/
def piecesFrom (d : Char) (escaped : Bool) : List Char → List (List Char)
  | [] => [[]]
  | c :: cs =>
    if c = d && !escaped then [] :: piecesFrom d false cs
    else onto c (piecesFrom d (escapes escaped c) cs)

/-- The parts of a command, the second character of which is its delimiter. -/
def cut (program : List Char) : List (List Char) :=
  match program with
  | _ :: d :: _ => piecesFrom d false program
  | _ => [program]

/-- Reads a text in which a backslash stands before characters that have a meaning, and before the delimiter. Nothing
else may be protected, and nothing with a meaning may stand there bare. -/
def readFrom (specials : List Char) (d : Char) : Bool → List Char → Option (List Char)
  | false, [] => some []
  | true, [] => none
  | true, c :: cs => if specials.contains c || c = d then (readFrom specials d false cs).map (c :: ·) else none
  | false, c :: cs =>
    if c = '\\' then readFrom specials d true cs
    else if specials.contains c then none
    else (readFrom specials d false cs).map (c :: ·)

/-- The text without the backslashes that protect a delimiter. -/
def unprotectFrom (d : Char) : Bool → List Char → List Char
  | false, [] => []
  | true, [] => ['\\']
  | true, c :: cs => (if c = d then [c] else ['\\', c]) ++ unprotectFrom d false cs
  | false, c :: cs => if c = '\\' then unprotectFrom d true cs else c :: unprotectFrom d false cs

/-- A line break that no backslash protects is in the text. -/
def breaks (escaped : Bool) : List Char → Bool
  | [] => false
  | c :: cs => (c = '\n' && !escaped) || breaks (escapes escaped c) cs

/-- The part of a command up to its delimiter, and what stands behind it. There is none if the line or the text ends
before. -/
def part? (d : Char) (escaped : Bool) : List Char → Option (List Char × List Char)
  | [] => none
  | c :: cs =>
    if c = d && !escaped then some ([], cs)
    else if c = '\n' && !escaped then none
    else (part? d (escapes escaped c) cs).map fun x => (c :: x.1, x.2)

/-- A substitution, of which the parts are as they are written. -/
structure Command where
  delimiter : Char
  pattern : List Char
  replacement : List Char
  flags : List Char
  deriving DecidableEq, Repr

/-- The flags that stand for themselves. -/
def isFlag (c : Char) : Bool :=
  ['g', 'p', 'i', 'I', 'm', 'M', 'e'].contains c || c.isDigit

/-- Reads a program that is one substitution. -/
def command? : List Char → Option Command
  | 's' :: d :: cs => do
    guard (d ≠ '\n' ∧ d ≠ '\\')
    let (pattern, cs) ← part? d false cs
    let (replacement, flags) ← part? d false cs
    guard (flags.all isFlag)
    return ⟨d, pattern, replacement, flags⟩
  | _ => none

example : cut "s/a\\/b/c\\\\/g".toList = ["s".toList, "a\\/b".toList, "c\\\\".toList, "g".toList] := by decide

theorem piecesFrom_ne_nil : piecesFrom d escaped cs ≠ [] := by
  cases cs with
  | nil => simp [piecesFrom]
  | cons c cs =>
    rw [piecesFrom]
    split
    · simp
    · cases piecesFrom d (escapes escaped c) cs <;> simp [onto]

/-- No delimiter in the part is bare, and nothing behind it is protected. -/
structure Whole (d : Char) (p : List Char) : Prop where
  pieces : piecesFrom d false p = [p]
  ends : dangles false p = false

theorem onto_append (c : Char) {ws : List (List Char)} (h : ws ≠ []) (ws' : List (List Char)) :
    onto c (ws ++ ws') = onto c ws ++ ws' := by
  cases ws with
  | nil => exact absurd rfl h
  | cons w ws => rfl

theorem piecesFrom_append_delimiter (hd : d ≠ '\\') (h : dangles escaped cs = false) :
    piecesFrom d escaped (cs ++ d :: ds) = piecesFrom d escaped cs ++ piecesFrom d false ds := by
  induction cs generalizing escaped with
  | nil =>
    obtain rfl : escaped = false := h
    simp [piecesFrom]
  | cons c cs ih =>
    rw [List.cons_append, piecesFrom, piecesFrom]
    split
    · rename_i hc
      simp only [Bool.and_eq_true, decide_eq_true_eq, Bool.not_eq_true'] at hc
      obtain ⟨rfl, rfl⟩ := hc
      have hnot : escapes false c = false := by simp [escapes, hd]
      have htail : dangles false cs = false := by rwa [dangles, List.foldl_cons, hnot] at h
      rw [ih htail, List.cons_append]
    · rw [ih h, onto_append c piecesFrom_ne_nil]

theorem cut_program (hd : d ≠ '\\') (hs : d ≠ 's') (hg : d ≠ 'g') (hp : Whole d p) (hr : Whole d r) :
    cut ('s' :: d :: p ++ d :: r ++ [d, 'g']) = [['s'], p, r, ['g']] := by
  have hsingle : ∀ {c : Char}, d ≠ c → c ≠ '\\' → Whole d [c] := fun hc hslash =>
    ⟨by simp [piecesFrom, onto, hc.symm], by simp [dangles, escapes, hslash]⟩
  have hfirst := hsingle hs (by decide)
  have hlast := hsingle hg (by decide)
  have hprogram : 's' :: d :: p ++ d :: r ++ [d, 'g'] = ['s'] ++ d :: (p ++ d :: (r ++ d :: ['g'])) := by simp
  have hcut : cut ('s' :: d :: p ++ d :: r ++ [d, 'g']) =
      piecesFrom d false ('s' :: d :: p ++ d :: r ++ [d, 'g']) := rfl
  rw [hcut, hprogram, piecesFrom_append_delimiter hd hfirst.ends, piecesFrom_append_delimiter hd hp.ends,
    piecesFrom_append_delimiter hd hr.ends, hfirst.pieces, hp.pieces, hr.pieces, hlast.pieces]
  rfl

theorem delimiter_mem (parts : List String) : delimiter parts ∈ delimiters := by
  rw [delimiter]
  cases h : delimiters.find? fun d => parts.all fun p => !p.toList.contains d with
  | none => exact List.mem_cons_self
  | some d => exact List.mem_of_find?_eq_some h

theorem delimiter_ne (parts : List String) {c : Char} (hc : c ∉ delimiters) : delimiter parts ≠ c :=
  fun h => hc (h ▸ delimiter_mem parts)

theorem breaks_append (escaped : Bool) (cs ds : List Char) :
    breaks escaped (cs ++ ds) = (breaks escaped cs || breaks (dangles escaped cs) ds) := by
  induction cs generalizing escaped with
  | nil => rfl
  | cons c cs ih => rw [List.cons_append, breaks, breaks, ih, Bool.or_assoc, dangles, dangles, List.foldl_cons]

theorem eq_singleton_of_onto {ws : List (List Char)} (hne : ws ≠ []) (h : onto c ws = [c :: cs]) : ws = [cs] := by
  obtain ⟨w, ws, rfl⟩ := List.exists_cons_of_ne_nil hne
  simpa [onto] using h

theorem part?_append (hpieces : piecesFrom d escaped p = [p]) (hends : dangles escaped p = false) (rest : List Char) :
    part? d escaped (p ++ d :: rest) = if breaks escaped p then none else some (p, rest) := by
  induction p generalizing escaped with
  | nil =>
    obtain rfl : escaped = false := hends
    simp [part?, breaks]
  | cons c cs ih =>
    rw [piecesFrom] at hpieces
    split at hpieces
    · simp at hpieces
    · rename_i hbare
      have htail := ih (eq_singleton_of_onto piecesFrom_ne_nil hpieces) hends
      rw [List.cons_append, part?, if_neg hbare, htail, breaks]
      by_cases hbreak : (c = '\n' && !escaped) = true
      · rw [if_pos hbreak, hbreak, Bool.true_or, if_pos rfl]
      · rw [if_neg hbreak, (Bool.not_eq_true _).mp hbreak, Bool.false_or]
        split <;> rfl

/-- A whole part is read up to its end, unless a line break in it ends the command before. -/
theorem Whole.part? (h : Whole d p) (rest : List Char) :
    part? d false (p ++ d :: rest) = if breaks false p then none else some (p, rest) :=
  part?_append h.pieces h.ends rest

theorem breaks_program (hd : d ≠ '\n') (hslash : d ≠ '\\') (hp : Whole d p) (hr : Whole d r) :
    breaks false ('s' :: d :: p ++ d :: r ++ [d, 'g']) = (breaks false p || breaks false r) := by
  have hstep : ∀ cs, breaks false (d :: cs) = breaks false cs := fun cs => by
    simp [breaks, escapes, hd, hslash]
  have hprogram : 's' :: d :: p ++ d :: r ++ [d, 'g'] = 's' :: d :: (p ++ d :: (r ++ d :: ['g'])) := by simp
  have hfirst : breaks false ('s' :: d :: (p ++ d :: (r ++ d :: ['g']))) =
      breaks false (d :: (p ++ d :: (r ++ d :: ['g']))) := rfl
  have hlast : breaks false ['g'] = false := rfl
  rw [hprogram, hfirst, hstep, breaks_append, hp.ends, hstep, breaks_append, hr.ends, hstep, hlast, Bool.or_false]

theorem command?_program (hd : d ≠ '\n') (hslash : d ≠ '\\') (hp : Whole d p) (hr : Whole d r) :
    command? ('s' :: d :: p ++ d :: r ++ [d, 'g']) =
      if breaks false ('s' :: d :: p ++ d :: r ++ [d, 'g']) then none else some ⟨d, p, r, ['g']⟩ := by
  rw [breaks_program hd hslash hp hr]
  have hprogram : 's' :: d :: p ++ d :: r ++ [d, 'g'] = 's' :: d :: (p ++ d :: (r ++ d :: ['g'])) := by simp
  have hguard : (guard (d ≠ '\n' ∧ d ≠ '\\') : Option Unit) = some () := if_pos ⟨hd, hslash⟩
  rw [hprogram, command?, hguard, hp.part?]
  cases breaks false p with
  | true => rfl
  | false =>
    show (do
      let (replacement, flags) ← part? d false (r ++ d :: ['g'])
      guard (flags.all isFlag)
      return (⟨d, p, replacement, flags⟩ : Command)) = _
    rw [hr.part?]
    cases breaks false r <;> rfl

/-! ### Escaped texts -/

theorem piecesFrom_protected (hd : d ≠ '\\') (c : Char) (cs : List Char) :
    piecesFrom d false ('\\' :: c :: cs) = onto '\\' (onto c (piecesFrom d false cs)) := by
  have hslash : escapes false '\\' = true ∧ escapes true c = false := ⟨rfl, by simp [escapes]⟩
  rw [piecesFrom, if_neg (by simp [hd.symm]), hslash.1, piecesFrom, if_neg (by simp), hslash.2]

theorem Whole.protected (h : Whole d p) (hd : d ≠ '\\') (c : Char) : Whole d ('\\' :: c :: p) := by
  refine ⟨?_, ?_⟩
  · rw [piecesFrom_protected hd, h.pieces]
    rfl
  · have hslash : escapes (escapes false '\\') c = false := by simp [escapes]
    rw [dangles, List.foldl_cons, List.foldl_cons, hslash]
    exact h.ends

theorem Whole.plain (h : Whole d p) (hc : c ≠ d) (hslash : c ≠ '\\') : Whole d (c :: p) := by
  have hnot : escapes false c = false := by simp [escapes, hslash]
  refine ⟨?_, ?_⟩
  · rw [piecesFrom, if_neg (by simp [hc]), hnot, h.pieces]
    rfl
  · rw [dangles, List.foldl_cons, hnot]
    exact h.ends

theorem decide_delimiter (d c : Char) : decide (some d = some c) = decide (c = d) :=
  decide_eq_decide.2 ⟨fun h => (Option.some.inj h).symm, fun h => congrArg some h.symm⟩

theorem toList_escape (specials : List Char) (d : Char) (s : String) :
    (escape specials (some d) s).toList =
      s.toList.flatMap fun c => if specials.contains c || c = d then ['\\', c] else [c] := by
  simp only [escape, String.toList_ofList, decide_delimiter]

theorem whole_escape (hd : d ≠ '\\') (hspecials : specials.contains '\\' = true) (s : String) :
    Whole d (escape specials (some d) s).toList := by
  rw [toList_escape]
  induction s.toList with
  | nil => exact ⟨rfl, rfl⟩
  | cons c cs ih =>
    rw [List.flatMap_cons]
    split
    · exact ih.protected hd c
    · rename_i hc
      simp only [Bool.or_eq_true, decide_eq_true_eq, not_or] at hc
      refine ih.plain hc.2 ?_
      rintro rfl
      exact hc.1 hspecials

theorem read_escape (hspecials : specials.contains '\\' = true) (s : String) :
    readFrom specials d false (escape specials (some d) s).toList = some s.toList := by
  rw [toList_escape]
  induction s.toList with
  | nil => rfl
  | cons c cs ih =>
    rw [List.flatMap_cons]
    split
    · rename_i hc
      rw [List.cons_append, List.singleton_append, readFrom, if_pos rfl, readFrom, if_pos hc, ih]
      rfl
    · rename_i hc
      simp only [Bool.or_eq_true, decide_eq_true_eq, not_or] at hc
      have hslash : c ≠ '\\' := by
        rintro rfl
        exact hc.1 hspecials
      rw [List.singleton_append, readFrom, if_neg hslash, if_neg hc.1, ih]
      rfl

theorem breaks_escape (hd : d ≠ '\n') (hspecials : specials.contains '\\' = true)
    (hbreak : specials.contains '\n' = false) (s : String) :
    breaks false (escape specials (some d) s).toList = s.toList.contains '\n' := by
  rw [toList_escape]
  induction s.toList with
  | nil => rfl
  | cons c cs ih =>
    rw [List.flatMap_cons, List.contains_cons]
    split
    · rename_i hc
      have hne : c ≠ '\n' := by
        rintro rfl
        rw [hbreak, Bool.false_or, decide_eq_true_eq] at hc
        exact hd hc.symm
      have hslash : escapes true c = false := by simp [escapes]
      have hprotected : ∀ ds, breaks false ('\\' :: c :: ds) = breaks false ds := fun ds => by
        simp [breaks, escapes]
      rw [List.cons_append, List.singleton_append, hprotected, ih]
      simp [hne.symm]
    · rename_i hc
      simp only [Bool.or_eq_true, decide_eq_true_eq, not_or] at hc
      have hslash : c ≠ '\\' := by
        rintro rfl
        exact hc.1 hspecials
      have hnot : escapes false c = false := by simp [escapes, hslash]
      have heq : ('\n' == c) = decide (c = '\n') := decide_eq_decide.2 eq_comm
      rw [List.singleton_append, breaks, hnot, ih, heq, Bool.not_false, Bool.and_true]

theorem protect_cons_bare (d : Char) (cs : List Char) (hd : d ≠ '\\') :
    protect (some d) false (d :: cs) = '\\' :: d :: protect (some d) false cs := by
  have hnot : (decide (d = '\\') && !false) = false := by simp [hd]
  rw [protect, if_pos (by simp), hnot]
  rfl

theorem protect_cons (h : ¬ ((c = d && !escaped) = true)) (cs : List Char) :
    protect (some d) escaped (c :: cs) = c :: protect (some d) (escapes escaped c) cs := by
  rw [protect, decide_delimiter, if_neg h]
  rfl

theorem piecesFrom_protect (hd : d ≠ '\\') (escaped : Bool) (cs : List Char) :
    piecesFrom d escaped (protect (some d) escaped cs) = [protect (some d) escaped cs] ∧
      dangles escaped (protect (some d) escaped cs) = dangles escaped cs := by
  induction cs generalizing escaped with
  | nil => exact ⟨rfl, rfl⟩
  | cons c cs ih =>
    by_cases hc : (c = d && !escaped) = true
    · simp only [Bool.and_eq_true, decide_eq_true_eq, Bool.not_eq_true'] at hc
      obtain ⟨rfl, rfl⟩ := hc
      obtain ⟨hpieces, hdangles⟩ := ih false
      have hnot : escapes false c = false := by simp [escapes, hd]
      have hslash : escapes (escapes false '\\') c = false := by simp [escapes]
      rw [protect_cons_bare c cs hd, piecesFrom_protected hd, hpieces]
      refine ⟨rfl, ?_⟩
      rw [dangles, List.foldl_cons, List.foldl_cons, hslash, dangles, List.foldl_cons, hnot]
      exact hdangles
    · obtain ⟨hpieces, hdangles⟩ := ih (escapes escaped c)
      rw [protect_cons hc, piecesFrom, if_neg hc, hpieces]
      exact ⟨rfl, hdangles⟩

theorem intercalate_onto (sep : List Char) (c : Char) (ws : List (List Char)) :
    sep.intercalate (onto c ws) = c :: sep.intercalate ws := by
  rcases ws with _ | ⟨w, _ | ⟨w', ws⟩⟩ <;> simp [onto, List.intercalate]

theorem intercalate_nil_cons (sep : List Char) {ws : List (List Char)} (h : ws ≠ []) :
    sep.intercalate ([] :: ws) = sep ++ sep.intercalate ws := by
  obtain ⟨w, ws, rfl⟩ := List.exists_cons_of_ne_nil h
  simp [List.intercalate]

theorem intercalate_piecesFrom (d : Char) (escaped : Bool) (cs : List Char) :
    [d].intercalate (piecesFrom d escaped cs) = cs := by
  induction cs generalizing escaped with
  | nil => rfl
  | cons c cs ih =>
    rw [piecesFrom]
    split
    · rename_i hc
      simp only [Bool.and_eq_true, decide_eq_true_eq] at hc
      rw [intercalate_nil_cons _ piecesFrom_ne_nil, ih, hc.1]
      rfl
    · rw [intercalate_onto, ih]

theorem protect_eq_intercalate (hd : d ≠ '\\') (escaped : Bool) (cs : List Char) :
    protect (some d) escaped cs = ['\\', d].intercalate (piecesFrom d escaped cs) := by
  induction cs generalizing escaped with
  | nil => rfl
  | cons c cs ih =>
    rw [piecesFrom]
    split
    · rename_i hc
      simp only [Bool.and_eq_true, decide_eq_true_eq, Bool.not_eq_true'] at hc
      obtain ⟨rfl, rfl⟩ := hc
      rw [protect_cons_bare c cs hd, intercalate_nil_cons _ piecesFrom_ne_nil, ih]
      rfl
    · rename_i hc
      rw [protect_cons hc, intercalate_onto, ih]

theorem unprotect_protect (hd : d ≠ '\\') (escaped : Bool) (cs : List Char) :
    unprotectFrom d escaped (protect (some d) escaped cs) = unprotectFrom d escaped cs := by
  induction cs generalizing escaped with
  | nil => rfl
  | cons c cs ih =>
    by_cases hc : (c = d && !escaped) = true
    · simp only [Bool.and_eq_true, decide_eq_true_eq, Bool.not_eq_true'] at hc
      obtain ⟨rfl, rfl⟩ := hc
      rw [protect_cons_bare c cs hd, unprotectFrom, if_pos rfl, unprotectFrom, if_pos rfl, ih, unprotectFrom,
        if_neg hd]
      rfl
    · rw [protect_cons hc]
      cases escaped with
      | true =>
        have hnot : escapes true c = false := by simp [escapes]
        rw [unprotectFrom, unprotectFrom, hnot, ih]
      | false =>
        rw [unprotectFrom, unprotectFrom]
        split
        · rename_i hslash
          subst hslash
          exact ih true
        · rename_i hslash
          have hnot : escapes false c = false := by simp [escapes, hslash]
          rw [hnot, ih]

theorem protect_protect (hd : d ≠ '\\') (cs : List Char) :
    protect (some d) false (protect (some d) false cs) = protect (some d) false cs := by
  rw [protect_eq_intercalate hd false (protect (some d) false cs), (piecesFrom_protect hd false cs).1]
  simp [List.intercalate]

/-- The part is the text with backslashes before its bare delimiters, and differs in nothing else. -/
structure Guards (d : Char) (text part : List Char) : Prop where
  text_eq : text = [d].intercalate (piecesFrom d false text)
  part_eq : part = ['\\', d].intercalate (piecesFrom d false text)
  unprotect : unprotectFrom d false part = unprotectFrom d false text

theorem toList_protectDelimiter (d : Char) (s : String) :
    (protectDelimiter (some d) s).toList = protect (some d) false s.toList := by
  rw [protectDelimiter, String.toList_ofList]

theorem guards_protect (hd : d ≠ '\\') (s : String) : Guards d s.toList (protectDelimiter (some d) s).toList := by
  rw [toList_protectDelimiter]
  exact ⟨(intercalate_piecesFrom d false s.toList).symm, protect_eq_intercalate hd false s.toList,
    unprotect_protect hd false s.toList⟩

theorem whole_protect (hd : d ≠ '\\') {s : String} (h : dangles false s.toList = false) :
    Whole d (protectDelimiter (some d) s).toList := by
  obtain ⟨hpieces, hdangles⟩ := piecesFrom_protect hd false s.toList
  rw [toList_protectDelimiter]
  exact ⟨hpieces, hdangles.trans h⟩

end Provision.Sed
