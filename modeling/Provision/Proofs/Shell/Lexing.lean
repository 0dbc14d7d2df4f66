import Mathlib.Data.List.Forall2
import Provision.Shell.Quoting

/-!
# Reading the quotes of a shell text

`Quote.after` follows the shell through a text: outside of quotes, in single quotes, in double
quotes, or behind a backslash in double quotes. A dollar sign is a character like any other here.
`Quote.bare` is what stays of a text when all quoted segments are deleted, and `Leaves cs b` says that
`cs` ends outside of quotes and leaves `b`. Quoted values leave nothing, whatever they hold
(`leaves_singleQuoted`, `leaves_doubleQuoted`). `SameOutside` relates texts that leave the same.
-/

namespace Provision.Shell

/-- Where the shell stands in a text. -/
inductive Quote where
  | outside
  | single
  | double
  /-- Behind a backslash in double quotes. -/
  | guarded
  deriving DecidableEq, Repr

namespace Quote

def next : Quote → Char → Quote
  | outside, '\x27' => single
  | outside, '\x22' => double
  | outside, _ => outside
  | single, '\x27' => outside
  | single, _ => single
  | double, '\x22' => outside
  | double, '\\' => guarded
  | double, _ => double
  | guarded, _ => double

/-- Where the shell stands behind a text. -/
def after (q : Quote) (cs : List Char) : Quote :=
  cs.foldl next q

/-- A text without its quoted segments, the quotes included. -/
def bare : Quote → List Char → List Char
  | _, [] => []
  | q, c :: cs => (if q = outside ∧ q.next c = outside then [c] else []) ++ bare (q.next c) cs

@[simp] theorem after_nil (q : Quote) : q.after [] = q := rfl

@[simp] theorem after_cons (q : Quote) (c : Char) (cs : List Char) :
    q.after (c :: cs) = (q.next c).after cs := rfl

theorem after_append (q : Quote) (cs ds : List Char) : q.after (cs ++ ds) = (q.after cs).after ds :=
  List.foldl_append

theorem bare_append (q : Quote) (cs ds : List Char) :
    q.bare (cs ++ ds) = q.bare cs ++ (q.after cs).bare ds := by
  induction cs generalizing q with
  | nil => rfl
  | cons c cs ih => simp only [List.cons_append, bare, ih, after_cons, List.append_assoc]

theorem next_double_of_ne {c : Char} (h1 : c ≠ '\x22') (h2 : c ≠ '\\') : double.next c = double := by
  unfold next; split <;> simp_all

theorem next_single_of_ne {c : Char} (h : c ≠ '\x27') : single.next c = single := by
  unfold next; split <;> simp_all

end Quote

open Quote

/-- Read from outside of quotes, `cs` ends there again, and `b` is what of it stands there. -/
def Leaves (cs b : List Char) : Prop :=
  outside.after cs = outside ∧ outside.bare cs = b

namespace Leaves

theorem nil : Leaves [] [] := ⟨rfl, rfl⟩

theorem append {cs ds b b' : List Char} (h : Leaves cs b) (h' : Leaves ds b') :
    Leaves (cs ++ ds) (b ++ b') := by
  refine ⟨?_, ?_⟩
  · rw [after_append, h.1, h'.1]
  · rw [bare_append, h.1, h.2, h'.2]

theorem of_after {cs : List Char} (h : outside.after cs = outside) : Leaves cs (outside.bare cs) :=
  ⟨h, rfl⟩

theorem plain {cs : List Char} (h : ∀ c ∈ cs, c ≠ '\x27' ∧ c ≠ '\x22') : Leaves cs cs := by
  induction cs with
  | nil => exact nil
  | cons c cs ih =>
    have hc : outside.next c = outside := by
      have := h c (by simp)
      unfold next; split <;> simp_all
    obtain ⟨h1, h2⟩ := ih fun c' h' => h c' (by simp [h'])
    exact ⟨by rw [after_cons, hc, h1], by simp [bare, hc, h2]⟩

end Leaves

theorem after_double_escape (c : Char) : double.after (escapeDouble c) = double := by
  unfold escapeDouble
  split
  · rfl
  · rename_i h
    simp only [not_or, Bool.or_eq_true, decide_eq_true_eq] at h
    exact next_double_of_ne h.1.2 h.1.1

theorem bare_double_escape (c : Char) : double.bare (escapeDouble c) = [] := by
  unfold escapeDouble
  split
  · have hn : double.next '\\' = guarded := rfl
    simp [bare, hn]
  · simp [bare]

theorem double_escaped (cs : List Char) :
    double.after (cs.flatMap escapeDouble) = double ∧ double.bare (cs.flatMap escapeDouble) = [] := by
  induction cs with
  | nil => exact ⟨rfl, rfl⟩
  | cons c cs ih =>
    rw [List.flatMap_cons, after_append, bare_append, after_double_escape, bare_double_escape]
    exact ih

theorem after_single_escape (c : Char) : single.after (escapeSingle c) = single := by
  unfold escapeSingle
  split
  · rfl
  · exact next_single_of_ne (by assumption)

theorem bare_single_escape (c : Char) : single.bare (escapeSingle c) = [] := by
  unfold escapeSingle
  split
  · rfl
  · simp [bare]

theorem single_escaped (cs : List Char) :
    single.after (cs.flatMap escapeSingle) = single ∧ single.bare (cs.flatMap escapeSingle) = [] := by
  induction cs with
  | nil => exact ⟨rfl, rfl⟩
  | cons c cs ih =>
    rw [List.flatMap_cons, after_append, bare_append, after_single_escape, bare_single_escape]
    exact ih

theorem leaves_doubleQuoted (s : String) : Leaves (doubleQuoted s).toList [] := by
  obtain ⟨h1, h2⟩ := double_escaped s.toList
  have hq : outside.next '\x22' = double := rfl
  rw [doubleQuoted, String.toList_ofList]
  refine ⟨?_, ?_⟩
  · rw [List.cons_append, after_cons, hq, after_append, h1]; rfl
  · rw [List.cons_append, bare, hq, bare_append, h1, h2]; rfl

theorem leaves_singleQuoted (s : String) : Leaves (singleQuoted s).toList [] := by
  obtain ⟨h1, h2⟩ := single_escaped s.toList
  have hq : outside.next '\x27' = single := rfl
  rw [singleQuoted, String.toList_ofList]
  refine ⟨?_, ?_⟩
  · rw [List.cons_append, after_cons, hq, after_append, h1]; rfl
  · rw [List.cons_append, bare, hq, bare_append, h1, h2]; rfl

/-- What a piece leaves: a quoted value nothing. -/
def Piece.bare : Piece → List Char
  | code t => outside.bare t.toList
  | double _ | single _ => []

/-- Whether the shell is outside of quotes again behind a piece. -/
def Piece.isClosed : Piece → Bool
  | code t => outside.after t.toList = outside
  | double _ | single _ => true

theorem Piece.leaves {p : Piece} (h : p.isClosed) : Leaves p.text.toList p.bare := by
  cases p with
  | code t => exact Leaves.of_after (of_decide_eq_true h)
  | double v => exact leaves_doubleQuoted v
  | single v => exact leaves_singleQuoted v

def Line.bare (l : Line) : List Char :=
  l.flatMap Piece.bare

def Line.isClosed (l : Line) : Bool :=
  l.all Piece.isClosed

theorem Line.leaves {l : Line} (h : l.isClosed) : Leaves l.text.toList l.bare := by
  rw [Line.text, String.toList_join]
  induction l with
  | nil => exact Leaves.nil
  | cons p l ih =>
    rw [isClosed, List.all_cons, Bool.and_eq_true] at h
    exact (Piece.leaves h.1).append (ih h.2)

/-- Both texts end outside of quotes, and without their quoted segments they are the same text. -/
def SameOutside (t t' : String) : Prop :=
  ∃ b, Leaves t.toList b ∧ Leaves t'.toList b

namespace SameOutside

theorem refl {t : String} (h : outside.after t.toList = outside) : SameOutside t t :=
  ⟨_, .of_after h, .of_after h⟩

theorem literal {cs : List Char} (h : outside.after cs = outside) :
    SameOutside (String.ofList cs) (String.ofList cs) :=
  refl (by rwa [String.toList_ofList])

theorem plain {t : String} (h : ∀ c ∈ t.toList, c ≠ '\x27' ∧ c ≠ '\x22') : SameOutside t t :=
  ⟨_, .plain h, .plain h⟩

theorem single (v v' : String) : SameOutside (singleQuoted v) (singleQuoted v') :=
  ⟨[], leaves_singleQuoted v, leaves_singleQuoted v'⟩

theorem double (v v' : String) : SameOutside (doubleQuoted v) (doubleQuoted v') :=
  ⟨[], leaves_doubleQuoted v, leaves_doubleQuoted v'⟩

theorem append {t t' u u' : String} (h : SameOutside t t') (h' : SameOutside u u') :
    SameOutside (t ++ u) (t' ++ u') := by
  obtain ⟨b, ht, ht'⟩ := h
  obtain ⟨c, hu, hu'⟩ := h'
  refine ⟨b ++ c, ?_, ?_⟩
  · rw [String.toList_append]; exact ht.append hu
  · rw [String.toList_append]; exact ht'.append hu'

theorem intercalate {ts ts' : List String} (h : List.Forall₂ SameOutside ts ts') :
    SameOutside ("\n".intercalate ts) ("\n".intercalate ts') := by
  induction h with
  | nil => exact refl rfl
  | @cons t t' ts ts' ht hts ih =>
    cases hts with
    | nil => simpa using ht
    | @cons u u' ts ts' hu hts =>
      rw [String.intercalate_cons_cons, String.intercalate_cons_cons]
      exact (ht.append (literal (by decide))).append ih

theorem line {l l' : Line} (h : l.isClosed) (h' : l'.isClosed) (hb : l.bare = l'.bare) :
    SameOutside l.text l'.text :=
  ⟨l.bare, Line.leaves h, hb ▸ Line.leaves h'⟩

end SameOutside

end Provision.Shell
