import Provision.Proofs.Shell.HereDocument
import Provision.Proofs.Step.Checking

/-!
# Lines that are given as one text

A step may give the lines that it appends as one text. What the block appends are the lines of the text once all that
ends a line is written as a newline (`lines_eq_newlineLines`). So the text is cut at its newlines and nowhere else, and
comes back when its lines are joined, exactly if no other character in it ends a line (`text_lines_iff`).
-/

namespace Provision

namespace Text

variable {c : Char} {cs l : List Char} {ls : List (List Char)}

/-- Leaves out the last line if it is empty. -/
def withoutOpen (ls : List (List Char)) : List (List Char) :=
  if ls.getLast? = some [] then ls.dropLast else ls

/-- The lines of a text that nothing but newlines end. A newline at the very end opens no further line. -/
def newlineLines (cs : List Char) : List (List Char) :=
  withoutOpen (cs.splitOn '\n')

theorem withoutOpen_cons_cons (l l' : List Char) (ls : List (List Char)) :
    withoutOpen (l :: l' :: ls) = l :: withoutOpen (l' :: ls) := by
  rw [withoutOpen, withoutOpen, List.getLast?_cons_cons, List.dropLast_cons_cons]
  split <;> rfl

theorem newlineLines_newline (cs : List Char) : newlineLines ('\n' :: cs) = [] :: newlineLines cs := by
  obtain ⟨l, ls, hsplit⟩ := List.exists_cons_of_ne_nil (List.splitOn_ne_nil '\n' cs)
  rw [newlineLines, newlineLines, List.splitOn_cons_eq_if_modifyHead, if_pos (by decide), hsplit,
    withoutOpen_cons_cons]

theorem newlineLines_cons (hc : c ≠ '\n') (cs : List Char) :
    newlineLines (c :: cs) =
      match newlineLines cs with
      | [] => [[c]]
      | l :: ls => (c :: l) :: ls := by
  obtain ⟨l, ls, hsplit⟩ := List.exists_cons_of_ne_nil (List.splitOn_ne_nil '\n' cs)
  rw [newlineLines, newlineLines, List.splitOn_cons_eq_if_modifyHead, if_neg (by simpa using hc), hsplit,
    List.modifyHead_cons]
  cases ls with
  | nil => cases l <;> rfl
  | cons l' ls => rw [withoutOpen_cons_cons, withoutOpen_cons_cons]

theorem intercalate_concat_nil (l : List Char) (ls : List (List Char)) :
    ['\n'].intercalate (l :: ls ++ [[]]) = ['\n'].intercalate (l :: ls) ++ ['\n'] := by
  induction ls generalizing l with
  | nil => simp
  | cons l' ls ih =>
    rw [List.cons_append, List.intercalate_cons_of_ne_nil (by simp), ih, List.intercalate_cons_cons, List.append_assoc,
      List.append_assoc, List.append_assoc]

theorem intercalate_withoutOpen (ls : List (List Char)) :
    ['\n'].intercalate (withoutOpen ls) = ['\n'].intercalate ls ∨
      ['\n'].intercalate (withoutOpen ls) ++ ['\n'] = ['\n'].intercalate ls := by
  rw [withoutOpen]
  split
  · rename_i hlast
    obtain ⟨init, rfl⟩ := List.getLast?_eq_some_iff.1 hlast
    rw [List.dropLast_concat]
    cases init with
    | nil => exact .inl rfl
    | cons l init => exact .inr (intercalate_concat_nil l init).symm
  · exact .inl rfl

/-- Joined by newlines, the lines are the text, which may have one newline more at its end. -/
theorem intercalate_newlineLines (cs : List Char) :
    ['\n'].intercalate (newlineLines cs) = cs ∨ ['\n'].intercalate (newlineLines cs) ++ ['\n'] = cs := by
  have hjoin : ['\n'].intercalate (cs.splitOn '\n') = cs := List.intercalate_splitOn '\n'
  have h := intercalate_withoutOpen (cs.splitOn '\n')
  rwa [hjoin] at h

/-- The characters but the newline that end a line. -/
def otherBreaks : List Char :=
  ['\r', '\x0b', '\x0c', '\x1c', '\x1d', '\x1e', '\u0085', '\u2028', '\u2029']

theorem isLineBreak_iff : isLineBreak c = true ↔ c = '\n' ∨ c ∈ otherBreaks := by
  constructor
  · intro h
    have hcode : c.toNat ∈ [10, 11, 12, 13, 28, 29, 30, 0x85, 0x2028, 0x2029] := by
      simp only [isLineBreak, Bool.or_eq_true, Bool.and_eq_true, decide_eq_true_eq, beq_iff_eq] at h
      simp only [List.mem_cons, List.not_mem_nil, or_false]
      omega
    have hall : ∀ n ∈ [10, 11, 12, 13, 28, 29, 30, 0x85, 0x2028, 0x2029],
        Char.ofNat n = '\n' ∨ Char.ofNat n ∈ otherBreaks := by decide
    have hc := hall _ hcode
    rwa [Char.ofNat_toNat] at hc
  · rintro (rfl | h)
    · rfl
    · exact List.all_eq_true.1 (by decide : otherBreaks.all isLineBreak = true) c h

/-- The text with a newline for each end of a line. -/
def withNewlines : List Char → List Char
  | [] => []
  | '\r' :: '\n' :: cs => '\n' :: withNewlines cs
  | c :: cs => (if isLineBreak c then '\n' else c) :: withNewlines cs

theorem lines_eq_newlineLines (cs : List Char) : lines cs = newlineLines (withNewlines cs) := by
  have hother : ∀ {c : Char}, ¬ isLineBreak c = true → c ≠ '\n' := by
    rintro c hc rfl
    exact hc rfl
  fun_induction lines cs with
  | case1 => rfl
  | case2 cs ih => rw [withNewlines, newlineLines_newline, ih]
  | case3 c cs hpair hc ih =>
    rw [withNewlines, if_pos hc, newlineLines_newline, ih]
    exact hpair
  | case4 c cs hpair hc hnil ih =>
    rw [withNewlines, if_neg hc, newlineLines_cons (hother hc), ← ih, hnil]
    exact hpair
  | case5 c cs hpair hc l ls hls ih =>
    rw [withNewlines, if_neg hc, newlineLines_cons (hother hc), ← ih, hls]
    exact hpair

theorem withNewlines_eq_self (h : ∀ c ∈ cs, c ∉ otherBreaks) : withNewlines cs = cs := by
  fun_induction withNewlines cs with
  | case1 => rfl
  | case2 cs ih => exact absurd (by decide) (h '\r' (by simp))
  | case3 c cs hpair ih =>
    obtain ⟨hc, hcs⟩ := List.forall_mem_cons.1 h
    rw [ih hcs]
    split
    · rename_i hbreak
      rcases isLineBreak_iff.1 hbreak with rfl | hother
      · rfl
      · exact absurd hother hc
    · rfl

theorem not_isLineBreak_of_mem_lines (h : l ∈ lines cs) (hc : c ∈ l) : isLineBreak c = false := by
  fun_induction lines cs generalizing l with
  | case1 => cases h
  | case2 cs ih | case3 b cs hpair hb ih =>
    rcases List.mem_cons.1 h with rfl | h
    · cases hc
    · exact ih h hc
  | case4 b cs hpair hb hnil ih =>
    obtain rfl := List.mem_singleton.1 h
    obtain rfl := List.mem_singleton.1 hc
    exact Bool.eq_false_iff.2 hb
  | case5 b cs hpair hb l' ls hls ih =>
    rw [hls] at ih
    rcases List.mem_cons.1 h with rfl | h
    · rcases List.mem_cons.1 hc with rfl | hc
      · exact Bool.eq_false_iff.2 hb
      · exact ih List.mem_cons_self hc
    · exact ih (List.mem_cons_of_mem _ h) hc

theorem mem_intercalate_newline (h : c ∈ ['\n'].intercalate ls) : c = '\n' ∨ ∃ l ∈ ls, c ∈ l := by
  induction ls with
  | nil => cases h
  | cons l ls ih =>
    by_cases hls : ls = []
    · rw [hls, List.intercalate_singleton] at h
      exact .inr ⟨l, List.mem_cons_self, h⟩
    · rw [List.intercalate_cons_of_ne_nil hls, List.mem_append, List.mem_append, List.mem_singleton] at h
      rcases h with (h | h) | h
      · exact .inr ⟨l, List.mem_cons_self, h⟩
      · exact .inl h
      · rcases ih h with h | ⟨l', hl', h⟩
        · exact .inl h
        · exact .inr ⟨l', List.mem_cons_of_mem _ hl', h⟩

theorem joined_lines_iff :
    (['\n'].intercalate (lines cs) = cs ∨ ['\n'].intercalate (lines cs) ++ ['\n'] = cs) ↔
      ∀ c ∈ cs, c ∉ otherBreaks := by
  constructor
  · intro h c hc hother
    have hmem : c = '\n' ∨ c ∈ ['\n'].intercalate (lines cs) := by
      rcases h with h | h
      · exact .inr (h.symm ▸ hc)
      · rw [← h, List.mem_append, List.mem_singleton] at hc
        exact hc.symm
    have hnewline : c ≠ '\n' := by
      rintro rfl
      exact absurd hother (by decide)
    obtain ⟨l, hl, hcl⟩ := (mem_intercalate_newline (hmem.resolve_left hnewline)).resolve_left hnewline
    have hbreak := isLineBreak_iff.2 (.inr hother)
    cases hbreak.symm.trans (not_isLineBreak_of_mem_lines hl hcl)
  · intro h
    rw [lines_eq_newlineLines, withNewlines_eq_self h]
    exact intercalate_newlineLines cs

theorem lines_eq_newlineLines_iff : lines cs = newlineLines cs ↔ ∀ c ∈ cs, c ∉ otherBreaks := by
  constructor
  · intro h
    exact joined_lines_iff.1 (h ▸ intercalate_newlineLines cs)
  · intro h
    rw [lines_eq_newlineLines, withNewlines_eq_self h]

end Text

/-! ### Steps -/

/-- The text cut at its newlines and nowhere else. -/
def newlineLinesOf (s : String) : List String :=
  (Text.newlineLines s.toList).map String.ofList

theorem toList_intercalate_linesOf (s : String) :
    ("\n".intercalate (linesOf s)).toList = ['\n'].intercalate (Text.lines s.toList) := by
  have hback : (Text.lines s.toList).map (String.toList ∘ String.ofList) = Text.lines s.toList := by
    simp
  rw [String.toList_intercalate, linesOf, List.map_map, hback]
  rfl

theorem linesOf_eq_newlineLinesOf_iff {s : String} :
    linesOf s = newlineLinesOf s ↔ ∀ c ∈ s.toList, c ∉ Text.otherBreaks := by
  rw [← Text.lines_eq_newlineLines_iff, linesOf, newlineLinesOf]
  exact (List.map_injective_iff.2 fun _ _ => String.ofList_injective).eq_iff

theorem joined_linesOf_iff {s : String} :
    ("\n".intercalate (linesOf s) = s ∨ "\n".intercalate (linesOf s) ++ "\n" = s) ↔
      ∀ c ∈ s.toList, c ∉ Text.otherBreaks := by
  rw [← Text.joined_lines_iff, ← toList_intercalate_linesOf, ← String.toList_inj, ← String.toList_inj,
    String.toList_append]
  rfl

/-- A step with one text for its lines can be read where its file has a text, and its lines are those of the text. -/
theorem Action.read_append {config : Members} {file t : String} (hfile : (config.value "file").text = .ok file)
    (hlines : config.get? "lines" = some (.str t)) :
    ∃ unique enabled, read .appendLines config = .ok (.appendLines file (linesOf t) unique enabled) := by
  obtain ⟨S, hS⟩ : ∃ S, Settings.read .appendLines config = .ok S := by
    refine Settings.exists_read fun d hd => ?_
    simp only [Kind.settings, List.mem_cons, List.not_mem_nil, or_false] at hd
    rcases hd with rfl | rfl | rfl | rfl
    · exact Json.exists_read_of_text _ hfile
    · exact ⟨.list (linesOf t), by rw [hlines]; rfl⟩
    · exact ⟨_, rfl⟩
    · exact ⟨_, rfl⟩
  have htext : S.text "file" = file := Except.ok.inj ((Settings.text_of_read hS rfl).symm.trans hfile)
  have hlist : S.list "lines" = linesOf t := by
    have hread : ((config.get? "lines").getD .null).lines = .ok (S.list "lines") := Settings.list_of_read hS rfl
    rw [hlines] at hread
    exact (Except.ok.inj hread).symm
  refine ⟨S.flag "unique", S.flag "backup", ?_⟩
  rw [read, hS, ← htext, ← hlist]
  rfl

/-- The lines of a step that gives them as one text are those of the text once every end of a line in it is written as
a newline. They are the text cut at its newlines and nowhere else, and joined give it back up to one newline at its end,
exactly if no other character in it ends a line. -/
theorem text_lines_iff {s : Step} {file t : String} (hkind : s.type = Kind.appendLines.name)
    (hfile : (s.config.value "file").text = .ok file) (hlines : s.config.get? "lines" = some (.str t)) :
    ∃ lines unique enabled,
      Action.read .appendLines s.config = .ok (.appendLines file lines unique enabled) ∧
      Fragment.ofStep s = .ok ⟨s.type, Fragment.appendLines file lines unique enabled, Kind.appendLines.commands⟩ ∧
      lines = newlineLinesOf (String.ofList (Text.withNewlines t.toList)) ∧
      (lines = newlineLinesOf t ↔ ∀ c ∈ t.toList, c ∉ Text.otherBreaks) ∧
      ("\n".intercalate lines = t ∨ "\n".intercalate lines ++ "\n" = t ↔ ∀ c ∈ t.toList, c ∉ Text.otherBreaks) := by
  obtain ⟨unique, enabled, hread⟩ := Action.read_append hfile hlines
  have hnewlines : linesOf t = newlineLinesOf (String.ofList (Text.withNewlines t.toList)) := by
    rw [newlineLinesOf, String.toList_ofList, ← Text.lines_eq_newlineLines, linesOf]
  refine ⟨linesOf t, unique, enabled, hread, ?_, hnewlines, linesOf_eq_newlineLinesOf_iff, joined_linesOf_iff⟩
  rw [Fragment.ofStep, Step.kind?, hkind, Kind.ofName_name]
  dsimp only
  rw [hread]
  rfl

/-- A step that appends the lines of a text to a file. -/
def appendTextStep (t : String) : Step :=
  { id := "s", name := "n", type := "append_lines", config := [("file", .str "/etc/motd"), ("lines", .str t)] }

/-- A unit separator is blank but ends no line. -/
theorem text_lines_iff_separator : ∃ lines unique enabled,
    Action.read .appendLines (appendTextStep "a\x1fb\n\n  c\n").config =
      .ok (.appendLines "/etc/motd" lines unique enabled) ∧
    lines = newlineLinesOf "a\x1fb\n\n  c\n" ∧
    ("\n".intercalate lines = "a\x1fb\n\n  c\n" ∨ "\n".intercalate lines ++ "\n" = "a\x1fb\n\n  c\n") := by
  obtain ⟨lines, unique, enabled, hread, -, -, hcut, hjoined⟩ :=
    text_lines_iff (s := appendTextStep "a\x1fb\n\n  c\n") rfl rfl rfl
  have hall : ("a\x1fb\n\n  c\n".toList.all (· ∉ Text.otherBreaks)) = true := by decide
  have hnone : ∀ c ∈ "a\x1fb\n\n  c\n".toList, c ∉ Text.otherBreaks :=
    fun c hc => of_decide_eq_true (List.all_eq_true.1 hall c hc)
  exact ⟨lines, unique, enabled, hread, hcut.2 hnone, hjoined.2 hnone⟩

/-- A form feed in the text is lost, and what stood on both sides of it becomes two lines. -/
theorem text_lines_cut :
    Action.read .appendLines (appendTextStep "a\x0cb").config = .ok (.appendLines "/etc/motd" ["a", "b"] false true) ∧
      newlineLinesOf "a\x0cb" = ["a\x0cb"] ∧ "\n".intercalate ["a", "b"] ≠ "a\x0cb" ∧
      "\n".intercalate ["a", "b"] ++ "\n" ≠ "a\x0cb" := by
  refine ⟨rfl, by decide, by decide, by decide⟩

end Provision
