import Mathlib.Data.List.Nodup
import Mathlib.Data.List.Perm.Subperm
import Mathlib.Data.Nat.Find
import Mathlib.Order.Bounds.Defs
import Provision.Proofs.Decimal.Digits
import Provision.Shell.HereDoc

/-!
# The search for a marker

A marker is searched for test by test: the base is tested first, and a text that equals a line gives way to the next
numbered one (`Candidate.step`, `Search`). As numbers are written differently, the candidates differ, and not all of
the first ones can be lines (`Candidate.exists_first`). So the search ends at the first candidate that is no line
(`Search.of_first`), and this is the marker (`marker_eq`).
-/

namespace Provision.HereDoc

theorem numbered_inj {base : String} {m n : Nat} (h : numbered base m = numbered base n) : m = n := by
  rw [numbered, numbered, String.append_right_inj] at h
  exact Decimal.intText_nat_inj h

theorem numbered_ne (base : String) (n : Nat) : numbered base n ≠ base := by
  intro h
  have hl := congrArg (fun s => s.toList.length) h
  simp [numbered] at hl

/-- How far a search is: the text that it tests, and the last number that it used. -/
structure Candidate where
  text : String
  number : Nat
  deriving DecidableEq, Repr

namespace Candidate

/-- The base itself, without a number. -/
def first (base : String) : Candidate :=
  ⟨base, 0⟩

def next (base : String) (c : Candidate) : Candidate :=
  ⟨numbered base (c.number + 1), c.number + 1⟩

/-- A text that equals a line gives way to the next one. -/
def step (lines : List String) (base : String) (c : Candidate) : Option Candidate :=
  if lines.contains c.text then some (c.next base) else none

/-- The candidate that is tested after `n` others. -/
def nth (base : String) : Nat → Candidate
  | 0 => first base
  | n + 1 => (nth base n).next base

variable {lines : List String} {base : String} {c : Candidate} {m n : Nat}

theorem step_of_mem (h : c.text ∈ lines) : c.step lines base = some (c.next base) :=
  if_pos (List.contains_iff_mem.2 h)

theorem step_of_not_mem (h : c.text ∉ lines) : c.step lines base = none :=
  if_neg (mt List.contains_iff_mem.1 h)

theorem number_nth (base : String) (n : Nat) : (nth base n).number = n := by
  induction n with
  | zero => rfl
  | succ n ih => rw [nth, next, ih]

theorem text_nth_succ (base : String) (n : Nat) : (nth base (n + 1)).text = numbered base (n + 1) := by
  rw [nth, next, number_nth]

theorem text_nth_inj (h : (nth base m).text = (nth base n).text) : m = n := by
  cases m with
  | zero =>
    cases n with
    | zero => rfl
    | succ n => exact absurd ((text_nth_succ base n).symm.trans h.symm) (numbered_ne base _)
  | succ m =>
    cases n with
    | zero => exact absurd ((text_nth_succ base m).symm.trans h) (numbered_ne base _)
    | succ n =>
      rw [text_nth_succ, text_nth_succ] at h
      exact numbered_inj h

theorem exists_free (lines : List String) (base : String) : ∃ n ≤ lines.length, (nth base n).text ∉ lines := by
  by_contra hall
  simp only [not_exists, not_and, not_not] at hall
  have hnodup : ((List.range (lines.length + 1)).map fun n => (nth base n).text).Nodup :=
    List.nodup_range.map fun m n h => text_nth_inj h
  have hsub : ((List.range (lines.length + 1)).map fun n => (nth base n).text) ⊆ lines := by
    intro s hs
    obtain ⟨n, hn, rfl⟩ := List.mem_map.1 hs
    exact hall n (Nat.le_of_lt_succ (List.mem_range.1 hn))
  have hlength := (List.subperm_of_subset hnodup hsub).length_le
  rw [List.length_map, List.length_range] at hlength
  omega

theorem exists_first (lines : List String) (base : String) :
    ∃ n ≤ lines.length, (nth base n).text ∉ lines ∧ ∀ m < n, (nth base m).text ∈ lines := by
  obtain ⟨k, hk, hfree⟩ := exists_free lines base
  have hex : ∃ n, (nth base n).text ∉ lines := ⟨k, hfree⟩
  exact ⟨Nat.find hex, Nat.le_trans (Nat.find_min' hex hfree) hk, Nat.find_spec hex,
    fun m hm => not_not.1 (Nat.find_min hex hm)⟩

end Candidate

open Candidate

/-- From a candidate on, the search makes so many tests and ends at another. -/
inductive Search (lines : List String) (base : String) : Candidate → Nat → Candidate → Prop
  | free {c : Candidate} (h : c.step lines base = none) : Search lines base c 1 c
  | taken {c c' d : Candidate} {tests : Nat} (h : c.step lines base = some c') (hd : Search lines base c' tests d) :
    Search lines base c (tests + 1) d

variable {lines : List String} {base : String} {c d d' : Candidate} {k n tests tests' : Nat}

namespace Search

theorem unique (h : Search lines base c tests d) (h' : Search lines base c tests' d') : tests = tests' ∧ d = d' := by
  induction h generalizing tests' with
  | free hstep =>
    cases h' with
    | free => exact ⟨rfl, rfl⟩
    | taken hstep' => cases hstep.symm.trans hstep'
  | taken hstep _ ih =>
    cases h' with
    | free hstep' => cases hstep.symm.trans hstep'
    | taken hstep' hd' =>
      obtain rfl := Option.some.inj (hstep.symm.trans hstep')
      obtain ⟨rfl, rfl⟩ := ih hd'
      exact ⟨rfl, rfl⟩

theorem of_nth (hfree : (nth base n).text ∉ lines) (htaken : ∀ m < n, (nth base m).text ∈ lines) (hk : k ≤ n) :
    Search lines base (nth base k) (n - k + 1) (nth base n) := by
  induction hj : n - k generalizing k with
  | zero =>
    obtain rfl : k = n := by omega
    exact .free (step_of_not_mem hfree)
  | succ j ih => exact .taken (step_of_mem (htaken k (by omega))) (ih (k := k + 1) (by omega) (by omega))

theorem of_first (hfree : (nth base n).text ∉ lines) (htaken : ∀ m < n, (nth base m).text ∈ lines) :
    Search lines base (first base) (n + 1) (nth base n) :=
  of_nth hfree htaken (Nat.zero_le n)

end Search

theorem marker_eq (hn : n ≤ lines.length) (hfree : (nth base n).text ∉ lines)
    (htaken : ∀ m < n, (nth base m).text ∈ lines) : marker lines base = (nth base n).text := by
  cases n with
  | zero =>
    have hbase : ¬ lines.contains base = true := mt List.contains_iff_mem.1 hfree
    exact if_neg hbase
  | succ n =>
    have hbase : lines.contains base = true := List.contains_iff_mem.2 (htaken 0 (Nat.succ_pos n))
    have hfind : (List.range lines.length).find? ((!lines.contains ·) ∘ fun k => numbered base (k + 1)) =
        some n := by
      refine List.find?_range_eq_some.2 ⟨?_, List.mem_range.2 hn, fun k hk => ?_⟩
      · simpa [text_nth_succ] using hfree
      · simpa [text_nth_succ] using htaken (k + 1) (Nat.succ_lt_succ hk)
    rw [marker, if_pos hbase, List.find?_map, hfind, text_nth_succ]
    rfl

theorem marker_cases (lines : List String) (base : String) :
    marker lines base = base ∧ base ∉ lines ∨
      ∃ n, marker lines base = numbered base n ∧ numbered base n ∉ lines := by
  obtain ⟨n, hn, hfree, htaken⟩ := exists_first lines base
  rw [marker_eq hn hfree htaken]
  cases n with
  | zero => exact .inl ⟨rfl, hfree⟩
  | succ n =>
    rw [text_nth_succ] at hfree ⊢
    exact .inr ⟨n + 1, rfl, hfree⟩

theorem marker_not_mem (lines : List String) (base : String) : marker lines base ∉ lines := by
  obtain ⟨n, hn, hfree, htaken⟩ := exists_first lines base
  rwa [marker_eq hn hfree htaken]

example : marker ["M", "M_3", "M_1"] "M" = "M_2" := by decide

/-- The search for a marker ends after at most one test more than there are lines. What it ends with is the base, if
this is no line, and otherwise the base with the least number, from one on, with which it is none. -/
theorem search_ends (lines : List String) (base : String) :
    ∃ tests d, (∀ tests' d', Search lines base (first base) tests' d' ↔ tests' = tests ∧ d' = d) ∧
      tests ≤ lines.length + 1 ∧ d.text = marker lines base ∧ marker lines base ∉ lines ∧
      (base ∉ lines ∧ marker lines base = base ∨
        base ∈ lines ∧
          ∃ n, IsLeast {n | 1 ≤ n ∧ numbered base n ∉ lines} n ∧ marker lines base = numbered base n) := by
  obtain ⟨n, hn, hfree, htaken⟩ := exists_first lines base
  have hsearch := Search.of_first hfree htaken
  have hmarker := marker_eq hn hfree htaken
  refine ⟨n + 1, nth base n, fun tests' d' => ⟨fun h => h.unique hsearch, ?_⟩, by omega, hmarker.symm,
    marker_not_mem lines base, ?_⟩
  · rintro ⟨rfl, rfl⟩
    exact hsearch
  · cases n with
    | zero => exact .inl ⟨hfree, hmarker⟩
    | succ n =>
      rw [text_nth_succ] at hfree hmarker
      refine .inr ⟨htaken 0 (Nat.succ_pos n), n + 1, ⟨⟨Nat.succ_pos n, hfree⟩, ?_⟩, hmarker⟩
      rintro m ⟨hm, hmem⟩
      -- A smaller number was tested before, and found among the lines.
      by_contra hlt
      obtain ⟨m, rfl⟩ := Nat.exists_eq_succ_of_ne_zero (Nat.one_le_iff_ne_zero.1 hm)
      exact hmem (text_nth_succ base m ▸ htaken (m + 1) (Nat.lt_of_not_le hlt))

end Provision.HereDoc
