import Provision.Proofs.Bundle.Gate

/-!
# What the outcome of an export says

An outcome is told apart by tests: whether it was written, whether it has an error, whether there are errors among
the findings. Every outcome that an export ends with is a success with a path and no error, or a refusal with an
error among its findings and no error of its own, or a failure with an error that is not empty, and never two of
them (`decided_of_export`).
-/

namespace Provision.Bundle

namespace Outcome

/-- Where the bundle is. -/
def path? : Outcome → Option Path
  | written path _ => some path
  | _ => none

/-- What has gone wrong, other than by the findings. -/
def error? : Outcome → Option String
  | failed error _ => some error
  | _ => none

variable {o : Outcome}

structure IsSuccess (o : Outcome) : Prop where
  written : o.isWritten = true
  path : ∃ path, o.path? = some path
  error : o.error? = none

structure IsRefusal (o : Outcome) : Prop where
  notWritten : o.isWritten = false
  findings : hasErrors o.issues = true
  error : o.error? = none

structure IsFailure (o : Outcome) : Prop where
  notWritten : o.isWritten = false
  error : ∃ error, o.error? = some error ∧ error ≠ ""

/-- Exactly one of the three. -/
inductive Decided (o : Outcome) : Prop
  | success (h : o.IsSuccess) (hr : ¬ o.IsRefusal) (hf : ¬ o.IsFailure)
  | refusal (h : o.IsRefusal) (hs : ¬ o.IsSuccess) (hf : ¬ o.IsFailure)
  | failure (h : o.IsFailure) (hs : ¬ o.IsSuccess) (hr : ¬ o.IsRefusal)

theorem IsSuccess.not_refusal (h : o.IsSuccess) : ¬ o.IsRefusal := fun hr => by
  cases h.written.symm.trans hr.notWritten

theorem IsSuccess.not_failure (h : o.IsSuccess) : ¬ o.IsFailure := fun hf => by
  cases h.written.symm.trans hf.notWritten

theorem IsRefusal.not_failure (h : o.IsRefusal) : ¬ o.IsFailure := fun hf => by
  obtain ⟨error, he, -⟩ := hf.error
  cases h.error.symm.trans he

theorem decided_iff : o.Decided ↔ o.IsSuccess ∨ o.IsRefusal ∨ o.IsFailure := by
  constructor
  · rintro (h | h | h)
    · exact .inl h
    · exact .inr (.inl h)
    · exact .inr (.inr h)
  · rintro (h | h | h)
    · exact .success h h.not_refusal h.not_failure
    · exact .refusal h (fun hs => hs.not_refusal h) h.not_failure
    · exact .failure h (fun hs => hs.not_failure h) fun hr => hr.not_failure h

theorem decided_written (path : Path) (issues : List Issue) : (written path issues).Decided :=
  decided_iff.2 (.inl ⟨rfl, ⟨path, rfl⟩, rfl⟩)

theorem decided_refused {issues : List Issue} (h : hasErrors issues = true) : (refused issues).Decided :=
  decided_iff.2 (.inr (.inl ⟨rfl, h, rfl⟩))

theorem decided_failed {error : String} (h : error ≠ "") (issues : List Issue) : (failed error issues).Decided :=
  decided_iff.2 (.inr (.inr ⟨rfl, error, rfl, h⟩))

end Outcome

variable {s : Store} {q : Request} {r : Recipe} {format : Format} {w w' : Workspace} {o : Outcome} {report : String}
  {room : Room} {troubles : Disk.Troubles}

theorem ne_empty_of_prefix {a : String} (ha : a ≠ "") (h : a.toList <+: report.toList) : report ≠ "" := by
  rintro rfl
  exact ha (String.toList_inj.1 (List.prefix_nil.1 h))

theorem ne_empty_of_isEarly (h : IsEarly report) : report ≠ "" := by
  obtain ⟨a, ha, hprefix⟩ := opening_of_isEarly h
  have hall : ∀ a ∈ earlyOpenings, a ≠ "" := by decide
  exact ne_empty_of_prefix (hall a ha) hprefix

theorem ne_empty_of_refusal {f : Failure} (hf : IsWriteFailure f) (h : f.refusal? = some report) : report ≠ "" := by
  obtain ⟨a, ha, hprefix⟩ := opening_of_refusal hf h
  have hall : ∀ a ∈ lateOpenings, a ≠ "" := by decide
  exact ne_empty_of_prefix (hall a ha) hprefix

theorem Ends.decided (h : Ends s q r format room troubles w (.ok o) w') : o.Decided := by
  cases h with
  | refused _ herrors => exact Outcome.decided_refused herrors
  | occupied => exact Outcome.decided_failed (ne_empty_of_isEarly (.inr (.inl rfl))) _
  | uncompiled _ _ _ hreport => exact Outcome.decided_failed (ne_empty_of_isEarly (.inr (.inr ⟨_, hreport⟩))) _
  | written => exact Outcome.decided_written _ _
  | notWritten _ _ hinstall hreport =>
    have hfailure := fails_install _ _ _ _ _ _ _ _ _ hinstall
    exact Outcome.decided_failed (ne_empty_of_refusal hfailure hreport) _

theorem decided_of_export (h : (exportProject s q room troubles).run w = (.ok o, w')) : o.Decided := by
  generalize hres : (.ok o : Except Failure Outcome) = res at h
  cases exportProject_concludes h with
  | unsupported =>
    cases hres
    exact Outcome.decided_failed (ne_empty_of_isEarly (.inl ⟨q.format, rfl⟩)) _
  | notLoaded => cases hres
  | @loaded r format _ _ _ _ hexport =>
    subst hres
    have hends := exportRecipe_ends s q r format room troubles w
    rw [hexport] at hends
    exact hends.decided

end Provision.Bundle
