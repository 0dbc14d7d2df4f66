import Provision.Proofs.Shell.Selection
import Provision.Proofs.Shell.Substitution
import Provision.Proofs.Shell.Words
import Provision.Proofs.Step.Checking

/-!
# What filters do

A block that deletes or replaces lines runs a filter on its target, which is read back from the text of the block, as
the words of a command (`Fragment.Runs`). What a replacement in fixed mode means is just the texts of its settings
(`fixed_replace_literal`), and in regex mode it is the program that is given (`regex_replace_kept`). The program can be
read as a command only if none of these texts has a line break (`fixed_replace_command_iff`). A deletion in fixed mode
removes the lines with a text in them, unless the text is of several lines (`fixed_delete_literal_iff`).
-/

namespace Provision

open Shell

variable {s : Step} {k : Kind} {config : Members} {texts : List (String × String)}
  {type file pattern replacement mode : String} {enabled : Bool} {requires : List String} {issues : List Issue}

/-- The step is of the kind, and its settings have the texts. -/
structure Step.Has (s : Step) (k : Kind) (texts : List (String × String)) : Prop where
  kind : s.type = k.name
  texts : ∀ x ∈ texts, (s.config.value x.1).text = .ok x.2

/-- Settings can be read where those have a text that are wanted as one, and the others are switches. -/
theorem Step.Has.exists_read (h : s.Has k texts)
    (hforms : ∀ d ∈ k.settings, d.1 ∈ texts.map (·.1) ∨ ∃ default, d.2 = .flag default) :
    ∃ S, Settings.read k s.config = .ok S := by
  refine Settings.exists_read fun d hd => ?_
  rcases hforms d hd with hmem | ⟨default, hflag⟩
  · obtain ⟨x, hx, hname⟩ := List.mem_map.1 hmem
    exact Json.exists_read_of_text d.2 (hname ▸ h.texts x hx)
  · exact ⟨_, by rw [hflag]; rfl⟩

theorem Step.Has.text_eq {S : Settings} {key t : String} (h : s.Has k texts) (hS : Settings.read k s.config = .ok S)
    (ht : (key, t) ∈ texts) (hkey : k.settings.lookup key = some .text) : S.text key = t :=
  Except.ok.inj ((Settings.text_of_read hS hkey).symm.trans (h.texts _ ht))

theorem Step.Has.kind? (h : s.Has k texts) : s.kind? = some k := by
  rw [Step.kind?, h.kind]
  exact Kind.ofName_name k

theorem Step.Has.exists_required (h : s.Has k texts) (key : String) (hcheck : Check.step s = .ok issues)
    (hkey : key ∈ k.required) : ∃ t, (s.config.value key).text = .ok t :=
  ((Check.exists_step h.kind?).1 ⟨issues, hcheck⟩).1 key hkey

theorem Step.Has.ofStep {S : Settings} (h : s.Has k texts) (hS : Settings.read k s.config = .ok S) :
    Fragment.ofStep s = .ok ⟨s.type, Fragment.ofAction (Action.ofSettings S k), k.commands⟩ := by
  rw [Fragment.ofStep, h.kind?]
  dsimp only
  rw [Action.read, hS]
  rfl

namespace Fragment

theorem ofStep_replace
    (h : s.Has .replace [("file", file), ("pattern", pattern), ("replacement", replacement), ("mode", mode)]) :
    ∃ enabled, ofStep s =
      .ok ⟨s.type, ofAction (.replace file pattern replacement mode enabled), Kind.replace.commands⟩ := by
  obtain ⟨S, hS⟩ := h.exists_read (by simp [Kind.settings])
  have hfile : S.text "file" = file := h.text_eq hS (by simp) rfl
  have hpattern : S.text "pattern" = pattern := h.text_eq hS (by simp) rfl
  have hreplacement : S.text "replacement" = replacement := h.text_eq hS (by simp) rfl
  have hmode : S.text "mode" = mode := h.text_eq hS (by simp) rfl
  refine ⟨S.flag "backup", ?_⟩
  rw [h.ofStep hS, Action.ofSettings, hfile, hpattern, hreplacement, hmode]

theorem ofStep_delete (h : s.Has .deleteLines [("file", file), ("match", pattern), ("mode", mode)]) :
    ∃ enabled, ofStep s =
      .ok ⟨s.type, ofAction (.deleteLines file pattern mode enabled), Kind.deleteLines.commands⟩ := by
  obtain ⟨S, hS⟩ := h.exists_read (by simp [Kind.settings])
  have hfile : S.text "file" = file := h.text_eq hS (by simp) rfl
  have hpattern : S.text "match" = pattern := h.text_eq hS (by simp) rfl
  have hmode : S.text "mode" = mode := h.text_eq hS (by simp) rfl
  refine ⟨S.flag "backup", ?_⟩
  rw [h.ofStep hS, Action.ofSettings, hfile, hpattern, hmode]

/-- The lines before a filter. -/
def preparation (file : String) (enabled : Bool) : List Line :=
  setTarget file :: backup enabled ++ (rewriteTarget []).take 1

/-- Where the output of a filter goes. -/
def redirection : Piece :=
  .code " > \"$tmp\" || \x7b rm -f \"$tmp\"; exit 1; \x7d"

/-- The lines behind a filter. -/
def installation : List Line :=
  (rewriteTarget []).drop 2

theorem exists_tokens_setTarget (file : String) : ∃ ts, tokens (setTarget file).text = some ts := by
  have hchars : (setTarget file).text.toList = "target=".toList ++ ((doubleQuoted file).toList ++ []) := by
    simp [setTarget, Line.text, Piece.text]
  have hafter : Position.between.after "target=".toList = .bare := by decide
  rw [tokens, hchars, tokensFrom_append, hafter, tokensFrom_double (.inr rfl)]
  exact ⟨_, rfl⟩

theorem exists_tokens_backup {l : Line} (h : l ∈ backup enabled) : ∃ ts, tokens l.text = some ts := by
  rw [backup] at h
  split at h
  · obtain rfl := List.mem_singleton.1 h
    exact Option.isSome_iff_exists.1 (by decide)
  · cases h

theorem exists_tokens_preparation (file : String) (enabled : Bool) :
    ∃ ts, tokens ("\n".intercalate ((preparation file enabled).map Line.text)) = some ts := by
  refine exists_tokens_lines fun t ht => ?_
  obtain ⟨l, hl, rfl⟩ := List.mem_map.1 ht
  rcases List.mem_append.1 hl with hl | hl
  · rcases List.mem_cons.1 hl with rfl | hl
    · exact exists_tokens_setTarget file
    · exact exists_tokens_backup hl
  · obtain rfl := List.mem_singleton.1 hl
    exact Option.isSome_iff_exists.1 (by decide)

theorem text_rewrite (type file : String) (enabled : Bool) (filter : Line) (requires : List String) :
    text ⟨type, setTarget file :: backup enabled ++ rewriteTarget filter, requires⟩ =
      "\n".intercalate ((preparation file enabled).map Line.text) ++ "\n" ++
        (Line.text (filter ++ [redirection]) ++ "\n" ++ "\n".intercalate (installation.map Line.text)) := by
  have hlines : (setTarget file :: backup enabled ++ rewriteTarget filter).map Line.text =
      (preparation file enabled).map Line.text ++
        Line.text (filter ++ [redirection]) :: installation.map Line.text := by
    simp [preparation, installation, rewriteTarget, redirection]
  rw [text, hlines, String.intercalate_append_of_ne_nil (by simp [preparation]) (by simp),
    String.intercalate_cons_of_ne_nil (by simp [installation, rewriteTarget])]

theorem tokens_rewrite (type file : String) (enabled : Bool) (requires : List String) {filter : Line} {ts : List Token}
    (h : tokens (Line.text (filter ++ [redirection])) = some ts) :
    ∃ before after, tokens (text ⟨type, setTarget file :: backup enabled ++ rewriteTarget filter, requires⟩) =
      some (before ++ .operator '\n' :: (ts ++ .operator '\n' :: after)) := by
  obtain ⟨before, hbefore⟩ := exists_tokens_preparation file enabled
  obtain ⟨after, hafter⟩ : ∃ after, tokens ("\n".intercalate (installation.map Line.text)) = some after :=
    Option.isSome_iff_exists.1 (by decide +kernel)
  rw [text_rewrite, tokens_line hbefore, tokens_line h, hafter]
  exact ⟨before, after, rfl⟩

/-- The block runs a command of these words: it stands at the beginning of a line, or of a group, and an operator
ends it. -/
def Runs (f : Fragment) (ws : List Word) : Prop :=
  ∃ before first c after, tokens f.text = some (before ++ first :: (ws.map .word ++ .operator c :: after)) ∧
    first ∈ [.operator '\n', .word (.plain "\x7b")]

/-- The file that the filter reads, as a word in which a variable is replaced. -/
def targetWord : Word :=
  ⟨"$target".toList, true⟩

theorem runs_of_tokens {ws : List Word} {c : Char} {lead tail : List Token} {filter : Line}
    (h : tokens (Line.text (filter ++ [redirection])) = some (lead ++ (ws.map .word ++ .operator c :: tail)))
    (hlead : lead = [] ∨ lead = [.word (.plain "\x7b")]) :
    Runs ⟨type, setTarget file :: backup enabled ++ rewriteTarget filter, requires⟩ ws := by
  obtain ⟨before, after, htokens⟩ := tokens_rewrite type file enabled requires h
  rcases hlead with rfl | rfl
  · refine ⟨before, .operator '\n', c, tail ++ .operator '\n' :: after, htokens.trans (congrArg some ?_), by simp⟩
    simp
  · refine ⟨before ++ [.operator '\n'], .word (.plain "\x7b"), c, tail ++ .operator '\n' :: after,
      htokens.trans (congrArg some ?_), by simp⟩
    simp

theorem tokens_quoted {code : String} {behind : Line} (v : String)
    (hcode : Position.between.after code.toList = .between) (hbehind : Ends behind.text.toList) :
    tokens (Line.text (.code code :: .single v :: behind)) =
      (tokens behind.text).map (Position.between.emits code.toList ∘ (.word (.plain v) :: ·)) := by
  have hchars : (Line.text (.code code :: .single v :: behind)).toList =
      code.toList ++ ((singleQuoted v).toList ++ behind.text.toList) := by
    simp [Line.text, Piece.text]
  rw [tokens, hchars, tokensFrom_append, hcode, tokensFrom_singleQuoted hbehind, Option.map_map]
  rfl

theorem exists_tail {o : Option (List Token)} {ts : List Token} (h : o.map (·.take ts.length) = some ts) :
    ∃ tail, o = some (ts ++ tail) := by
  obtain ⟨us, rfl, hts⟩ := Option.map_eq_some_iff.1 h
  exact ⟨us.drop ts.length, congrArg some (by conv_lhs => rw [← List.take_append_drop ts.length us, hts])⟩

/-- The words of a substitution. -/
def replaceWords (pattern replacement mode : String) : List Word :=
  if Text.lower mode = "regex" then
    [.plain "sed", .plain "-r", .plain (substitution pattern replacement mode), targetWord]
  else [.plain "sed", .plain (substitution pattern replacement mode), targetWord]

theorem runs_replace (type file pattern replacement mode : String) (enabled : Bool) (requires : List String) :
    Runs ⟨type, ofAction (.replace file pattern replacement mode enabled), requires⟩
      (replaceWords pattern replacement mode) := by
  obtain ⟨tail, htail⟩ : ∃ tail, tokens (Line.text [.code " \"$target\"", redirection]) =
      some ([.word targetWord, .operator '>'] ++ tail) := exists_tail (by decide)
  have hends : Ends (Line.text [.code " \"$target\"", redirection]).toList := by decide
  have hline : tokens (Line.text (replaceFilter pattern replacement mode ++ [redirection])) =
      some ([] ++ ((replaceWords pattern replacement mode).map .word ++ .operator '>' :: tail)) := by
    rw [replaceFilter, replaceWords]
    split
    · have hcode : Position.between.after "sed -r ".toList = .between := by decide
      exact (tokens_quoted _ hcode hends).trans (congrArg (Option.map _) htail)
    · have hcode : Position.between.after "sed ".toList = .between := by decide
      exact (tokens_quoted _ hcode hends).trans (congrArg (Option.map _) htail)
  exact runs_of_tokens hline (.inl rfl)

/-- The words of a deletion in fixed mode. -/
def deleteWords (pattern : String) : List Word :=
  [.plain "grep", .plain "-Fv", .plain "--", .plain pattern, targetWord]

theorem runs_delete (type file pattern : String) (enabled : Bool) (requires : List String)
    (hmode : Text.lower mode ≠ "regex") :
    Runs ⟨type, ofAction (.deleteLines file pattern mode enabled), requires⟩ (deleteWords pattern) := by
  obtain ⟨tail, htail⟩ : ∃ tail,
      tokens (Line.text [.code " \"$target\" || [ $? -eq 1 ]; \x7d", redirection]) =
        some ([.word targetWord, .operator '|'] ++ tail) := exists_tail (by decide +kernel)
  have hends : Ends (Line.text [.code " \"$target\" || [ $? -eq 1 ]; \x7d", redirection]).toList := by
    decide
  have hline : tokens (Line.text (deleteFilter pattern mode ++ [redirection])) =
      some ([.word (.plain "\x7b")] ++ ((deleteWords pattern).map .word ++ .operator '|' :: tail)) := by
    have hcode : Position.between.after "\x7b grep -Fv -- ".toList = .between := by decide
    rw [deleteFilter, if_neg hmode]
    exact (tokens_quoted pattern hcode hends).trans (congrArg (Option.map _) htail)
  exact runs_of_tokens hline (.inr rfl)

theorem toList_command (d : Char) (p r : String) :
    ("s" ++ d.toString ++ p ++ d.toString ++ r ++ d.toString ++ "g").toList =
      's' :: d :: p.toList ++ d :: r.toList ++ [d, 'g'] := by
  simp [String.toList_append]

theorem substitution_fixed (pattern replacement : String) (hmode : Text.lower mode ≠ "regex") : ∃ d p r,
    (substitution pattern replacement mode).toList = 's' :: d :: p ++ d :: r ++ [d, 'g'] ∧
      d = Sed.delimiter [pattern, replacement] ∧ p = (Sed.literalPattern (some d) pattern).toList ∧
      r = (Sed.literalReplacement (some d) replacement).toList := by
  refine ⟨_, _, _, ?_, rfl, rfl, rfl⟩
  rw [substitution, if_neg hmode]
  exact toList_command _ _ _

theorem substitution_regex (pattern replacement : String) (hmode : Text.lower mode = "regex") : ∃ d p r,
    (substitution pattern replacement mode).toList = 's' :: d :: p ++ d :: r ++ [d, 'g'] ∧
      d = Sed.delimiter [pattern, replacement] ∧ p = (Sed.protectDelimiter (some d) pattern).toList ∧
      r = (Sed.protectDelimiter (some d) replacement).toList := by
  refine ⟨_, _, _, ?_, rfl, rfl, rfl⟩
  rw [substitution, if_pos hmode]
  exact toList_command _ _ _

theorem cut_command (pattern replacement : String) {d : Char} {p r : List Char}
    (hd : d = Sed.delimiter [pattern, replacement]) (hp : Sed.Whole d p) (hr : Sed.Whole d r) :
    Sed.cut ('s' :: d :: p ++ d :: r ++ [d, 'g']) = [['s'], p, r, ['g']] := by
  subst hd
  exact Sed.cut_program (Sed.delimiter_ne _ (by decide)) (Sed.delimiter_ne _ (by decide))
    (Sed.delimiter_ne _ (by decide)) hp hr

end Fragment

open Fragment

/-! ### Replacements -/

/-- In fixed mode a block runs one substitution, of which pattern and replacement are read as the texts of the settings
and nothing else, also if these hold all candidates for the delimiter. -/
theorem fixed_replace_literal
    (h : s.Has .replace [("file", file), ("pattern", pattern), ("replacement", replacement), ("mode", mode)])
    (hmode : Text.lower mode ≠ "regex") :
    ∃ f program d p r, ofStep s = .ok f ∧ f.Runs [.plain "sed", .plain program, targetWord] ∧
      program.toList[1]? = some d ∧ Sed.cut program.toList = [['s'], p, r, ['g']] ∧
      Sed.readFrom Sed.patternSpecials d false p = some pattern.toList ∧
      Sed.readFrom Sed.replacementSpecials d false r = some replacement.toList := by
  obtain ⟨enabled, hstep⟩ := ofStep_replace h
  have hruns := runs_replace s.type file pattern replacement mode enabled Kind.replace.commands
  obtain ⟨d, p, r, hprogram, hd, rfl, rfl⟩ := substitution_fixed pattern replacement hmode
  rw [replaceWords, if_neg hmode] at hruns
  have hslash : d ≠ '\\' := hd ▸ Sed.delimiter_ne _ (by decide)
  refine ⟨_, _, d, _, _, hstep, hruns, by rw [hprogram]; rfl, ?_, Sed.read_escape rfl pattern,
    Sed.read_escape rfl replacement⟩
  rw [hprogram]
  exact cut_command pattern replacement hd (Sed.whole_escape hslash rfl pattern)
    (Sed.whole_escape hslash rfl replacement)

/-- A step that replaces a pattern in a file. -/
def replaceStep (pattern replacement mode : String) : Step :=
  { id := "s", name := "n", type := "replace",
    config := [("file", .str "/etc/hosts"), ("pattern", .str pattern), ("replacement", .str replacement),
      ("mode", .str mode)] }

theorem has_replaceStep (pattern replacement mode : String) : (replaceStep pattern replacement mode).Has .replace
    [("file", "/etc/hosts"), ("pattern", pattern), ("replacement", replacement), ("mode", mode)] := by
  refine ⟨rfl, fun x hx => ?_⟩
  simp only [List.mem_cons, List.not_mem_nil, or_false] at hx
  rcases hx with rfl | rfl | rfl | rfl <;> rfl

theorem fixed_replace_literal_delimiters : ∃ f program d p r,
    ofStep (replaceStep "/|#@%,:~.*" "\\/&" "fixed") = .ok f ∧ f.Runs [.plain "sed", .plain program, targetWord] ∧
      program.toList[1]? = some d ∧ Sed.cut program.toList = [['s'], p, r, ['g']] ∧
      Sed.readFrom Sed.patternSpecials d false p = some "/|#@%,:~.*".toList ∧
      Sed.readFrom Sed.replacementSpecials d false r = some "\\/&".toList :=
  fixed_replace_literal (has_replaceStep "/|#@%,:~.*" "\\/&" "fixed") (by decide)

/-- Where a replacement in fixed mode can be checked, its program is read as one command with the two texts of the
settings, or as none: a line break in one of these ends it, and no backslash stands before it. -/
theorem fixed_replace_command_iff (h : s.Has .replace [("mode", mode)]) (hmode : Text.lower mode ≠ "regex")
    (hcheck : Check.step s = .ok issues) :
    ∃ pattern replacement f program d p r,
      s.Has .replace [("pattern", pattern), ("replacement", replacement)] ∧ ofStep s = .ok f ∧
      f.Runs [.plain "sed", .plain program, targetWord] ∧
      (Sed.breaks false program.toList = false ↔ '\n' ∉ pattern.toList ∧ '\n' ∉ replacement.toList) ∧
      Sed.command? program.toList = (if Sed.breaks false program.toList then none else some ⟨d, p, r, ['g']⟩) ∧
      Sed.readFrom Sed.patternSpecials d false p = some pattern.toList ∧
      Sed.readFrom Sed.replacementSpecials d false r = some replacement.toList := by
  obtain ⟨file, hfile⟩ := h.exists_required "file" hcheck (by decide)
  obtain ⟨pattern, hpattern⟩ := h.exists_required "pattern" hcheck (by decide)
  obtain ⟨replacement, hreplacement⟩ := h.exists_required "replacement" hcheck (by decide)
  have hall : s.Has .replace
      [("file", file), ("pattern", pattern), ("replacement", replacement), ("mode", mode)] :=
    ⟨h.kind, by simpa [hfile, hpattern, hreplacement] using h.texts⟩
  obtain ⟨enabled, hstep⟩ := ofStep_replace hall
  have hruns := runs_replace s.type file pattern replacement mode enabled Kind.replace.commands
  rw [replaceWords, if_neg hmode] at hruns
  obtain ⟨d, p, r, hprogram, hd, hp, hr⟩ := substitution_fixed pattern replacement hmode
  have hslash : d ≠ '\\' := hd ▸ Sed.delimiter_ne _ (by decide)
  have hnewline : d ≠ '\n' := hd ▸ Sed.delimiter_ne _ (by decide)
  have hwhole : Sed.Whole d p ∧ Sed.Whole d r :=
    ⟨hp ▸ Sed.whole_escape hslash rfl pattern, hr ▸ Sed.whole_escape hslash rfl replacement⟩
  have hbreaks : Sed.breaks false p = pattern.toList.contains '\n' ∧
      Sed.breaks false r = replacement.toList.contains '\n' := by
    rw [hp, hr]
    exact ⟨Sed.breaks_escape hnewline rfl rfl pattern, Sed.breaks_escape hnewline rfl rfl replacement⟩
  have hread : Sed.readFrom Sed.patternSpecials d false p = some pattern.toList ∧
      Sed.readFrom Sed.replacementSpecials d false r = some replacement.toList := by
    rw [hp, hr]
    exact ⟨Sed.read_escape rfl pattern, Sed.read_escape rfl replacement⟩
  refine ⟨pattern, replacement, _, _, d, p, r, ⟨h.kind, by simp [hpattern, hreplacement]⟩, hstep, hruns, ?_, ?_,
    hread⟩
  · rw [hprogram, Sed.breaks_program hnewline hslash hwhole.1 hwhole.2, hbreaks.1, hbreaks.2]
    simp
  · rw [hprogram]
    exact Sed.command?_program hnewline hslash hwhole.1 hwhole.2

theorem fixed_replace_command_iff_literal : ∃ pattern replacement f program d p r,
    (replaceStep "a.b" "\\&" "fixed").Has .replace [("pattern", pattern), ("replacement", replacement)] ∧
      ofStep (replaceStep "a.b" "\\&" "fixed") = .ok f ∧ f.Runs [.plain "sed", .plain program, targetWord] ∧
      (Sed.breaks false program.toList = false ↔ '\n' ∉ pattern.toList ∧ '\n' ∉ replacement.toList) ∧
      Sed.command? program.toList = (if Sed.breaks false program.toList then none else some ⟨d, p, r, ['g']⟩) ∧
      Sed.readFrom Sed.patternSpecials d false p = some pattern.toList ∧
      Sed.readFrom Sed.replacementSpecials d false r = some replacement.toList :=
  have hcheck : Check.step (replaceStep "a.b" "\\&" "fixed") = .ok [] := rfl
  fixed_replace_command_iff ⟨rfl, by simp [replaceStep, Members.value, Members.get?]; rfl⟩ (by decide) hcheck

/-- Nothing is wrong with a replacement of two lines, and its program ends in the middle. -/
theorem fixed_replace_breaks : ∃ f program, Check.step (replaceStep "x" "a\nb" "fixed") = .ok [] ∧
    ofStep (replaceStep "x" "a\nb" "fixed") = .ok f ∧ f.Runs [.plain "sed", .plain program, targetWord] ∧
    program = "s/x/a\nb/g" ∧ Sed.breaks false program.toList = true ∧ Sed.command? program.toList = none := by
  obtain ⟨enabled, hstep⟩ := ofStep_replace (has_replaceStep "x" "a\nb" "fixed")
  have hruns := runs_replace "replace" "/etc/hosts" "x" "a\nb" "fixed" enabled Kind.replace.commands
  refine ⟨_, _, rfl, hstep, hruns, ?_, ?_, ?_⟩ <;> decide

/-- In regex mode a block runs one substitution, of which pattern and replacement are those of the settings, with
backslashes before bare delimiters only, unless they end in a backslash that protects nothing. Protecting again what
is protected changes nothing. -/
theorem regex_replace_kept :
    (∀ {s : Step} {file pattern replacement mode : String},
      s.Has .replace [("file", file), ("pattern", pattern), ("replacement", replacement), ("mode", mode)] →
      Text.lower mode = "regex" → Sed.dangles false pattern.toList = false →
      Sed.dangles false replacement.toList = false →
      ∃ f program d p r, ofStep s = .ok f ∧ f.Runs [.plain "sed", .plain "-r", .plain program, targetWord] ∧
        program.toList[1]? = some d ∧ Sed.cut program.toList = [['s'], p, r, ['g']] ∧
        Sed.Guards d pattern.toList p ∧ Sed.Guards d replacement.toList r) ∧
    ∀ (d : Char) (t : String), d ≠ '\\' →
      Sed.protectDelimiter (some d) (Sed.protectDelimiter (some d) t) = Sed.protectDelimiter (some d) t ∧
        Sed.piecesFrom d false (Sed.protectDelimiter (some d) t).toList =
          [(Sed.protectDelimiter (some d) t).toList] := by
  constructor
  · intro s file pattern replacement mode h hmode hpattern hreplacement
    obtain ⟨enabled, hstep⟩ := ofStep_replace h
    have hruns := runs_replace s.type file pattern replacement mode enabled Kind.replace.commands
    obtain ⟨d, p, r, hprogram, hd, rfl, rfl⟩ := substitution_regex pattern replacement hmode
    rw [replaceWords, if_pos hmode] at hruns
    have hslash : d ≠ '\\' := hd ▸ Sed.delimiter_ne _ (by decide)
    refine ⟨_, _, d, _, _, hstep, hruns, by rw [hprogram]; rfl, ?_, Sed.guards_protect hslash pattern,
      Sed.guards_protect hslash replacement⟩
    rw [hprogram]
    exact cut_command pattern replacement hd (Sed.whole_protect hslash hpattern)
      (Sed.whole_protect hslash hreplacement)
  · intro d t hslash
    have hpieces := (Sed.piecesFrom_protect hslash false t.toList).1
    rw [← Sed.toList_protectDelimiter] at hpieces
    refine ⟨?_, hpieces⟩
    rw [← String.toList_inj, Sed.toList_protectDelimiter, Sed.toList_protectDelimiter, Sed.protect_protect hslash]

theorem regex_replace_kept_delimiters : (∃ f program d p r,
    ofStep (replaceStep "/|#@%,:~\\/(.*)" "\\1/" "regex") = .ok f ∧
      f.Runs [.plain "sed", .plain "-r", .plain program, targetWord] ∧
      program.toList[1]? = some d ∧ Sed.cut program.toList = [['s'], p, r, ['g']] ∧
      Sed.Guards d "/|#@%,:~\\/(.*)".toList p ∧ Sed.Guards d "\\1/".toList r) ∧
    Sed.protectDelimiter (some '/') (Sed.protectDelimiter (some '/') "a/b\\/c") =
      Sed.protectDelimiter (some '/') "a/b\\/c" :=
  ⟨regex_replace_kept.1 (has_replaceStep "/|#@%,:~\\/(.*)" "\\1/" "regex") (by decide) (by decide)
    (by decide), (regex_replace_kept.2 '/' "a/b\\/c" (by decide)).1⟩

/-- In fixed mode a block keeps the lines that do not have the text of the setting in them, unless the text is of
several lines: then it removes every line that has one of these in it. -/
theorem fixed_delete_literal_iff
    (h : s.Has .deleteLines [("file", file), ("match", pattern), ("mode", mode)]) (hmode : Text.lower mode ≠ "regex") :
    ∃ f, ofStep s = .ok f ∧ f.Runs [.plain "grep", .plain "-Fv", .plain "--", .plain pattern, targetWord] ∧
      ∀ lines : List (List Char), (∀ l ∈ lines, '\n' ∉ l) →
        (Grep.kept pattern.toList lines = lines.filter (fun l => ¬ pattern.toList <:+: l) ↔
          ('\n' ∈ pattern.toList → ∀ l ∈ lines, ¬ Grep.Selects pattern.toList l)) := by
  obtain ⟨enabled, hstep⟩ := ofStep_delete h
  exact ⟨_, hstep, runs_delete s.type file pattern enabled Kind.deleteLines.commands hmode,
    fun lines hlines => Grep.kept_eq_iff hlines⟩

/-- A step that deletes the lines with a text in a file. -/
def fixedDeleteStep (pattern : String) : Step :=
  { id := "s", name := "n", type := "delete_lines",
    config := [("file", .str "/etc/hosts"), ("match", .str pattern), ("mode", .str "fixed")] }

theorem has_fixedDeleteStep (pattern : String) : (fixedDeleteStep pattern).Has .deleteLines
    [("file", "/etc/hosts"), ("match", pattern), ("mode", "fixed")] := by
  refine ⟨rfl, fun x hx => ?_⟩
  simp only [List.mem_cons, List.not_mem_nil, or_false] at hx
  rcases hx with rfl | rfl | rfl <;> rfl

theorem fixed_delete_literal_iff_word : ∃ f, ofStep (fixedDeleteStep "a.c") = .ok f ∧
    f.Runs [.plain "grep", .plain "-Fv", .plain "--", .plain "a.c", targetWord] ∧
    Grep.kept "a.c".toList ["a.c".toList, "abc".toList] = ["abc".toList] := by
  obtain ⟨f, hf, hruns, hkept⟩ := fixed_delete_literal_iff (has_fixedDeleteStep "a.c") (by decide)
  refine ⟨f, hf, hruns, ((hkept _ (by decide)).2 fun h => absurd h (by decide)).trans ?_⟩
  decide

/-- Nothing is wrong with a text of two lines, and a line with one of them in it is removed. -/
theorem fixed_delete_removes_others : ∃ f, Check.step (fixedDeleteStep "a\nb") = .ok [] ∧
    ofStep (fixedDeleteStep "a\nb") = .ok f ∧
    f.Runs [.plain "grep", .plain "-Fv", .plain "--", .plain "a\nb", targetWord] ∧
    Grep.kept "a\nb".toList ["a".toList] = [] ∧ ¬ "a\nb".toList <:+: "a".toList := by
  obtain ⟨enabled, hstep⟩ := ofStep_delete (has_fixedDeleteStep "a\nb")
  refine ⟨_, ?_, hstep, runs_delete _ _ _ _ _ (by decide), by decide, by decide⟩
  rfl

end Provision
