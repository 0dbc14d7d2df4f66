import Mathlib.Data.List.Flatten
import Provision.Proofs.Script.Variables
import Provision.Proofs.Shell.Words

/-!
# The variables that a script defines

A script defines each variable with a name for one, in the order of the recipe, and the log directory behind them where
it is not among them (`Installer.defined`). What the shell reads of the definition of a variable is a test of its name,
an assignment of its value in one word, and an export (`Installer.defining`). Of the names that are no identifiers, the
program takes those with a line break at the end for names, too; the section of the script is as it should be exactly
if no variable has such a name (`Installer.varsSection_defines_iff`).
-/

namespace Provision

open Shell

variable {vars vars' : List (String × String)} {name value : String} {cs rest : List Char}

namespace Shell

theorem isPlain_of_isNameChar {c : Char} (h : isNameChar c = true) : isPlain c = true := by
  have hnone : specials.all (fun d => !isNameChar d) = true := by decide
  refine isPlain_of_not_mem fun hc => ?_
  have hother := List.all_eq_true.1 hnone c hc
  rw [h] at hother
  cases hother

theorem isNameChar_of_isNameStart {c : Char} (h : isNameStart c = true) : isNameChar c = true := by
  simp only [isNameStart, isNameChar, Char.isAlphanum, Bool.or_eq_true] at h ⊢
  exact h.imp_left .inl

theorem isIdentifier_iff : isIdentifier cs = true ↔
    (∀ c ∈ cs.head?, isNameStart c = true) ∧ (∀ c ∈ cs, isNameChar c = true) ∧ cs ≠ [] := by
  cases cs with
  | nil => simp [isIdentifier]
  | cons c cs =>
    simp only [isIdentifier, Bool.and_eq_true, List.all_eq_true, List.head?_cons, Option.mem_some_iff,
      forall_eq', List.forall_mem_cons, ne_eq, reduceCtorEq, not_false_iff, and_true]
    exact ⟨fun h => ⟨h.1, isNameChar_of_isNameStart h.1, h.2⟩, fun h => ⟨h.1, h.2.2⟩⟩

theorem isName_iff : isName name = true ↔
    isIdentifier name.toList = true ∨ ∃ s, isIdentifier s.toList = true ∧ name = s ++ "\n" := by
  rw [isName, chomp]
  split
  · rename_i hlast
    have hsplit := List.dropLast_append_getLast? _ hlast
    constructor
    · refine fun h => .inr ⟨String.ofList name.toList.dropLast, by rwa [String.toList_ofList], ?_⟩
      rw [← String.toList_inj, String.toList_append, String.toList_ofList]
      exact hsplit.symm
    · rintro (h | ⟨s, hs, rfl⟩)
      · exact absurd ((isIdentifier_iff.1 h).2.1 '\n' (List.mem_of_getLast? hlast)) (by decide)
      · rwa [String.toList_append, show "\n".toList = ['\n'] from rfl, List.dropLast_concat]
  · rename_i hlast
    refine ⟨.inl, fun h => h.elim id ?_⟩
    rintro ⟨s, -, rfl⟩
    exact absurd (by rw [String.toList_append]; exact List.getLast?_concat) hlast

end Shell

namespace Installer

/-- The variables that a script is to define. -/
def defined (vars : List (String × String)) : List (String × String) :=
  (vars.filter fun v => isIdentifier v.1.toList) ++
    if vars.any (·.1 == "LOG_DIR") then [] else [("LOG_DIR", Recipe.defaultLogDir)]

/-- What is read of the definition of a variable: whether it is set, its assignment, and its export. -/
def defining (v : String × String) : List Token :=
  [.word ⟨"[".toList, true⟩, .word (.plain "-n"), .word ⟨("$\x7b" ++ v.1 ++ ":-\x7d").toList, true⟩,
    .word (.plain "]"), .operator '|', .operator '|',
    .word ⟨(v.1 ++ "=" ++ v.2).toList, v.2.toList.any (· = '$')⟩, .operator '\n',
    .word (.plain "export"), .word (.plain v.1), .operator '\n']

/-- The lines that define a variable. -/
def definition (v : String × String) : String :=
  "\n".intercalate (assignment v.1 v.2) ++ "\n"

theorem toList_definition (v : String × String) : (definition v).toList =
    "[ -n \"$\x7b".toList ++ (v.1.toList ++ (":-\x7d\" ] || ".toList ++ (v.1.toList ++ ('=' ::
      ((doubleQuoted v.2).toList ++ ('\n' :: ("export ".toList ++ (v.1.toList ++ ['\n'])))))))) := by
  rw [definition, assignment, String.intercalate_cons_of_ne_nil (List.cons_ne_nil _ _), String.intercalate_singleton]
  simp only [String.toList_append, List.append_assoc]
  rfl

theorem toList_assignments (h : vars ≠ []) :
    (assignments vars ++ "\n").toList = vars.flatMap fun v => (definition v).toList := by
  induction vars with
  | nil => exact absurd rfl h
  | cons v vars ih =>
    cases vars with
    | nil => rw [assignments, List.flatMap_singleton, List.flatMap_singleton, definition]
    | cons u us =>
      have hlines : (u :: us).flatMap (fun v => assignment v.1 v.2) ≠ [] := by simp [assignment]
      rw [List.flatMap_cons, ← ih (List.cons_ne_nil _ _), assignments, List.flatMap_cons,
        String.intercalate_append_of_ne_nil (by simp [assignment]) hlines, definition, assignments]
      simp only [String.toList_append, List.append_assoc]

theorem eq_of_sublist_of_flatMap {α β : Type} {f : α → List β} {l l' : List α} (hf : ∀ a, f a ≠ [])
    (h : l.Sublist l') (heq : l.flatMap f = l'.flatMap f) : l = l' := by
  induction h with
  | slnil => rfl
  | @cons l l' a h _ =>
    have hle : (l.flatMap f).length ≤ (l'.flatMap f).length := (h.flatMap f).length_le
    have hpos := List.length_pos_iff.2 (hf a)
    rw [heq, List.flatMap_cons, List.length_append] at hle
    omega
  | @cons_cons l l' a _ ih =>
    rw [List.flatMap_cons, List.flatMap_cons, List.append_cancel_left_eq] at heq
    rw [ih heq]

/-! ### The definitions of a section -/

theorem defined_sublist (vars : List (String × String)) : (defined vars).Sublist (assigned (withLogDir vars)) := by
  have hnames : (vars.filter fun v => isIdentifier v.1.toList).Sublist (vars.filter fun v => isName v.1) :=
    List.monotone_filter_right _ fun v hv => isName_iff.2 (.inl hv)
  rw [defined, withLogDir]
  split
  · rw [List.append_nil]
    exact hnames
  · rw [assigned, List.filter_append]
    exact hnames.append (by exact .refl _)

theorem logDir_mem_defined (vars : List (String × String)) : "LOG_DIR" ∈ (defined vars).map (·.1) := by
  rw [defined]
  split
  · rename_i hany
    obtain ⟨v, hv, hname⟩ := List.any_eq_true.1 hany
    rw [beq_iff_eq] at hname
    refine List.mem_map.2 ⟨v, List.mem_append_left _ (List.mem_filter.2 ⟨hv, ?_⟩), hname⟩
    rw [hname]
    decide
  · simp

theorem defined_eq_iff : defined vars = assigned (withLogDir vars) ↔
    ∀ v ∈ vars, isName v.1 = true → isIdentifier v.1.toList = true := by
  have hfilter : (vars.filter fun v => isIdentifier v.1.toList) = vars.filter (fun v => isName v.1) ↔
      ∀ v ∈ vars, isName v.1 = true → isIdentifier v.1.toList = true := by
    constructor
    · intro h v hv hname
      have hmem : v ∈ vars.filter fun v => isIdentifier v.1.toList := h ▸ List.mem_filter.2 ⟨hv, hname⟩
      exact (List.mem_filter.1 hmem).2
    · intro h
      refine List.filter_congr fun v hv => ?_
      rw [Bool.eq_iff_iff]
      exact ⟨fun hid => isName_iff.2 (.inl hid), h v hv⟩
  rw [← hfilter, defined, withLogDir]
  split
  · rw [List.append_nil, assigned]
  · rw [assigned, List.filter_append]
    exact List.append_left_inj _

theorem varsSection_eq_iff :
    varsSection vars = assignments (defined vars) ++ "\n" ↔ defined vars = assigned (withLogDir vars) := by
  rw [varsSection_eq]
  refine ⟨fun h => ?_, fun h => by rw [h]⟩
  have hdefined : defined vars ≠ [] := fun hnil => by simpa [hnil] using logDir_mem_defined vars
  have hassigned : assigned (withLogDir vars) ≠ [] := fun hnil =>
    hdefined (List.sublist_nil.1 (hnil ▸ defined_sublist vars))
  have hchars := congrArg String.toList h
  rw [toList_assignments hdefined, toList_assignments hassigned] at hchars
  exact eq_of_sublist_of_flatMap (fun v => by rw [toList_definition]; simp) (defined_sublist vars) hchars.symm

theorem emits_test (text : List Char) (e : Bool) (ts : List Token) :
    Position.between.emits "[ -n \"$\x7b".toList (.word ⟨text, e⟩ :: ts) =
      .word ⟨"[".toList, true⟩ :: .word (.plain "-n") :: .word ⟨"$\x7b".toList ++ text, true⟩ :: ts :=
  rfl

theorem emits_tested (ts : List Token) : Position.double.emits ":-\x7d\" ] || ".toList ts =
    .word ⟨":-\x7d".toList, false⟩ :: .word (.plain "]") :: .operator '|' :: .operator '|' :: ts :=
  rfl

theorem tokensFrom_definition {v : String × String} (h : isIdentifier v.1.toList = true) (rest : List Char) :
    tokensFrom .between ((definition v).toList ++ rest) =
      (tokensFrom .between rest).map (defining v ++ ·) := by
  obtain ⟨-, hchars, hne⟩ := isIdentifier_iff.1 h
  have hplain : ∀ c ∈ v.1.toList, isPlain c = true := fun c hc => isPlain_of_isNameChar (hchars c hc)
  obtain ⟨hafter, hemits⟩ := read_plain (.inr rfl) hplain
  have htest : Position.between.after "[ -n \"$\x7b".toList = .double := by decide
  have htested : Position.double.after ":-\x7d\" ] || ".toList = .between := by decide
  have hequals : ∀ cs, tokensFrom .bare (['='] ++ cs) = (tokensFrom .bare cs).map (Position.prepend ['='] false) :=
    tokensFrom_plain (.inr rfl) (List.forall_mem_singleton.2 rfl)
  have hline : ∀ cs, tokensFrom .between ('\n' :: cs) = (tokensFrom .between cs).map (.operator '\n' :: ·) :=
    fun _ => rfl
  have hends : ∀ cs, Ends ('\n' :: cs) := by simp [Ends, isBreak, isOperator]
  have hexport : ∀ cs, tokensFrom .between ("export ".toList ++ cs) =
      (tokensFrom .between cs).map (.word (.plain "export") :: ·) := fun cs => by
    rw [tokensFrom_append, show Position.between.after "export ".toList = .between by decide]
    rfl
  rw [toList_definition]
  simp only [List.append_assoc, List.cons_append, List.nil_append]
  rw [tokensFrom_append, htest, tokensFrom_append, hafter, hemits, tokensFrom_append, htested,
    tokensFrom_plain (.inl ⟨rfl, hne⟩) hplain, ← List.singleton_append, hequals, tokensFrom_double (.inr rfl),
    tokensFrom_bare (hends _), hline, hexport, tokensFrom_word hne hplain (hends _), hline]
  simp only [Option.map_map]
  refine congrArg (Option.map · _) (funext fun ts => ?_)
  simp only [Function.comp_apply, emits_tested, Position.prepend, emits_test]
  simp [defining, Word.plain]

theorem tokens_definitions (hne : vars ≠ []) (h : ∀ v ∈ vars, isIdentifier v.1.toList = true) :
    tokens (assignments vars ++ "\n") = some (vars.flatMap defining) := by
  rw [tokens, toList_assignments hne]
  clear hne
  induction vars with
  | nil => rfl
  | cons v vars ih =>
    obtain ⟨hv, hvars⟩ := List.forall_mem_cons.1 h
    rw [List.flatMap_cons, tokensFrom_definition hv, ih hvars]
    rfl

theorem isIdentifier_of_mem_defined {v : String × String} (h : v ∈ defined vars) :
    isIdentifier v.1.toList = true := by
  rw [defined] at h
  rcases List.mem_append.1 h with h | h
  · exact (List.mem_filter.1 h).2
  · split at h
    · cases h
    · rw [List.mem_singleton.1 h]
      decide

/-- The section of the variables is as it should be exactly if no name is an identifier with a line break at its end. It
then defines, in the order of the recipe, the variables whose names are identifiers, each of them once and with its
value in one word, and the log directory is one of these. -/
theorem varsSection_defines_iff (hk : IsKeyed vars) :
    (varsSection vars = assignments (defined vars) ++ "\n" ↔
      ∀ v ∈ vars, ∀ name : String, isIdentifier name.toList = true → v.1 ≠ name ++ "\n") ∧
    tokens (assignments (defined vars) ++ "\n") = some ((defined vars).flatMap defining) ∧
    ((defined vars).map (·.1)).count "LOG_DIR" = 1 := by
  have hlog := logDir_mem_defined vars
  have hne : defined vars ≠ [] := fun hnil => by simp [hnil] at hlog
  refine ⟨?_, tokens_definitions hne fun v hv => isIdentifier_of_mem_defined hv, ?_⟩
  · rw [varsSection_eq_iff, defined_eq_iff]
    refine forall₂_congr fun v hv => ⟨fun h name hname heq => ?_, fun h hname => ?_⟩
    · have hid := h (isName_iff.2 (.inr ⟨name, hname, heq⟩))
      rw [heq] at hid
      exact absurd ((isIdentifier_iff.1 hid).2.1 '\n' (by simp)) (by decide)
    · exact (isName_iff.1 hname).resolve_right fun ⟨name, hid, heq⟩ => h name hid heq
  · have hnodup : ((defined vars).map (·.1)).Nodup :=
      (isKeyed_assigned (isKeyed_withLogDir hk)).sublist ((defined_sublist vars).map _)
    exact List.count_eq_one_of_mem hnodup hlog

theorem varsSection_defines_iff_skipped :
    (varsSection [("A", "x y"), ("1B", "z")] = assignments (defined [("A", "x y"), ("1B", "z")]) ++ "\n" ↔
      ∀ v ∈ [("A", "x y"), ("1B", "z")], ∀ name : String, isIdentifier name.toList = true → v.1 ≠ name ++ "\n") ∧
    tokens (assignments (defined [("A", "x y"), ("1B", "z")]) ++ "\n") =
      some ((defined [("A", "x y"), ("1B", "z")]).flatMap defining) ∧
    ((defined [("A", "x y"), ("1B", "z")]).map (·.1)).count "LOG_DIR" = 1 :=
  varsSection_defines_iff (by simp [IsKeyed])

/-- A name with a line break at its end is no identifier, and the variable is assigned all the same: the line break ends
the command. -/
theorem varsSection_defines_broken : isIdentifier "A\n".toList = false ∧
    defined [("A\n", "x")] = [("LOG_DIR", "/var/log/asg")] ∧
    varsSection [("A\n", "x")] = "[ -n \"$\x7bA\n:-\x7d\" ] || A\n=\"x\"\nexport A\n\n" ++
      "[ -n \"$\x7bLOG_DIR:-\x7d\" ] || LOG_DIR=\"/var/log/asg\"\nexport LOG_DIR\n" ∧
    varsSection [("A\n", "x")] ≠ assignments (defined [("A\n", "x")]) ++ "\n" := by
  refine ⟨?_, ?_, ?_, ?_⟩ <;> decide

end Installer

end Provision
