import Mathlib.Data.List.Infix
import Provision.Proofs.Shell.HereDocument

/-!
# Selecting lines

A filter that selects lines takes its operand as a list of texts, one on each line, and selects the lines that have one
of these in them. An operand of one line is looked for as it stands; one of several lines selects lines that do not have
it in them (`kept_eq_iff`).
-/

namespace Provision.Grep

/-- The operand is a list of texts, one on each line. -/
def texts (operand : List Char) : List (List Char) :=
  HereDoc.physicalLines operand

/-- A line is selected that has one of the texts in it. -/
def Selects (operand line : List Char) : Prop :=
  ∃ t ∈ texts operand, t <:+: line

instance (operand line : List Char) : Decidable (Selects operand line) :=
  inferInstanceAs (Decidable (∃ t ∈ texts operand, t <:+: line))

/-- The lines that are not selected. -/
def kept (operand : List Char) (lines : List (List Char)) : List (List Char) :=
  lines.filter fun l => ¬ Selects operand l

/-- The lines that are kept are those without the operand in them, unless the operand is of several texts, and one of
these is in a line. -/
theorem kept_eq_iff {operand : List Char} {lines : List (List Char)} (hlines : ∀ l ∈ lines, '\n' ∉ l) :
    kept operand lines = lines.filter (fun l => ¬ operand <:+: l) ↔
      ('\n' ∈ operand → ∀ l ∈ lines, ¬ Selects operand l) := by
  by_cases hnewline : '\n' ∈ operand
  · -- no line has a newline in it, so none has the operand
    have hall : lines.filter (fun l => ¬ operand <:+: l) = lines :=
      List.filter_eq_self.2 fun l hl => decide_eq_true fun hin => hlines l hl (hin.subset hnewline)
    rw [hall, kept, List.filter_eq_self, forall_prop_of_true hnewline]
    exact forall₂_congr fun l _ => decide_eq_true_iff
  · have hselects : ∀ l, Selects operand l ↔ operand <:+: l := fun l => by
      rw [Selects, texts, HereDoc.physicalLines_of_no_newline hnewline]
      simp
    simp only [kept, hselects, hnewline, false_imp_iff]

end Provision.Grep
