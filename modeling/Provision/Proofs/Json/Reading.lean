import Provision.Json.Reader
import Provision.Proofs.Json.Shape

/-!
# What is read has distinct keys

`wellKeyed_of_read`: a value that was read has no key twice in an object. It is an invariant of the
machine: what its open containers hold so far has distinct keys, and `put` keeps that.
-/

namespace Provision.Json

def Token.WellKeyed : Token → Prop
  | .scalar v => v.WellKeyed
  | _ => True

def Frame.WellKeyed : Frame → Prop
  | .items done => ∀ v ∈ done, v.WellKeyed
  | .members done _ => IsKeyed done ∧ ∀ m ∈ done, m.2.WellKeyed

def StackKeyed (stack : List Frame) : Prop :=
  ∀ f ∈ stack, f.WellKeyed

def State.WellKeyed : State → Prop
  | .value stack | .firstItem stack | .firstKey stack => StackKeyed stack
  | .afterItem done stack => Frame.WellKeyed (.items done) ∧ StackKeyed stack
  | .key done stack | .colon done _ stack | .afterMember done stack =>
    Frame.WellKeyed (.members done "") ∧ StackKeyed stack
  | .finished v => v.WellKeyed

theorem stackKeyed_nil : StackKeyed [] :=
  List.forall_mem_nil _

theorem stackKeyed_cons {f : Frame} {stack : List Frame} :
    StackKeyed (f :: stack) ↔ f.WellKeyed ∧ StackKeyed stack :=
  List.forall_mem_cons

variable {limits : Limits} {stack : List Frame} {t : Token} {s s' : State}

theorem wellKeyed_of_number {negative : Bool} {cs rest : List Char}
    (h : number? negative cs = some (t, rest)) : t.WellKeyed := by
  unfold number? at h
  simp only at h
  split at h
  · cases h
  · split at h
    · cases h; trivial
    · split at h <;> (cases h; trivial)

theorem wellKeyed_of_named {cs rest : List Char} (h : named? cs = some (t, rest)) :
    t.WellKeyed := by
  obtain ⟨⟨word, value⟩, hm, hw⟩ := List.exists_of_findSome?_eq_some h
  simp only at hw
  split at hw
  · cases hw
    simp only [namedValues, List.mem_cons, Prod.mk.injEq, List.not_mem_nil, or_false] at hm
    rcases hm with hm | hm | hm | hm | hm | hm <;> (obtain ⟨-, rfl⟩ := hm; trivial)
  · cases hw

theorem wellKeyed_of_punctuation {c : Char} (h : punctuation? c = some t) : t.WellKeyed := by
  unfold punctuation? at h
  split at h <;> (cases h; try trivial)

theorem wellKeyed_of_tokenAt {c : Char} {cs rest : List Char}
    (h : tokenAt? c cs = some (t, rest)) : t.WellKeyed := by
  unfold tokenAt? at h
  split at h
  · rename_i hp; cases h; exact wellKeyed_of_punctuation hp
  · rename_i hn; cases h; exact wellKeyed_of_named hn
  · split at h
    · obtain ⟨⟨s, r⟩, -, hr⟩ := Option.map_eq_some_iff.1 h
      cases hr
      trivial
    · split at h <;> exact wellKeyed_of_number h

theorem wellKeyed_complete {v : Json} (hv : v.WellKeyed) (hs : StackKeyed stack) :
    (complete v stack).WellKeyed := by
  match stack, hs with
  | [], _ => exact hv
  | .items done :: stack, hs =>
    obtain ⟨hd, hs⟩ := stackKeyed_cons.1 hs
    exact ⟨List.forall_mem_cons.2 ⟨hv, hd⟩, hs⟩
  | .members done key :: stack, hs =>
    obtain ⟨⟨hk, hd⟩, hs⟩ := stackKeyed_cons.1 hs
    refine ⟨⟨isKeyed_put key v hk, fun m hm => ?_⟩, hs⟩
    rcases mem_put hm with rfl | hm
    · exact hv
    · exact hd m hm

theorem wellKeyed_of_startValue (ht : t.WellKeyed) (hs : StackKeyed stack)
    (h : startValue limits stack t = .ok s') : s'.WellKeyed := by
  unfold startValue at h
  split at h
  · cases h; exact wellKeyed_complete trivial hs
  · cases h; exact wellKeyed_complete ht hs
  · split at h
    · cases h
    · cases h; exact wellKeyed_complete trivial hs
  · split at h <;> cases h; exact hs
  · split at h <;> cases h; exact hs
  · cases h

theorem wellKeyed_of_step (ht : t.WellKeyed) (hs : s.WellKeyed) (h : step limits s t = .ok s') :
    s'.WellKeyed := by
  unfold step at h
  split at h
  -- In the order of the rules of `step`.
  · exact wellKeyed_of_startValue ht hs h
  · cases h; exact wellKeyed_complete trivial hs
  · have hnew : Frame.WellKeyed (.items []) := fun v hv => (List.not_mem_nil hv).elim
    exact wellKeyed_of_startValue ht (stackKeyed_cons.2 ⟨hnew, hs⟩) h
  · cases h; exact stackKeyed_cons.2 hs
  · cases h
    refine wellKeyed_complete (wellKeyed_arr.2 fun v hv => hs.1 v ?_) hs.2
    exact List.mem_reverse.1 hv
  · cases h
    exact wellKeyed_complete (wellKeyed_obj.2 ⟨isKeyed_nil, List.forall_mem_nil _⟩) hs
  · cases h; exact ⟨⟨isKeyed_nil, List.forall_mem_nil _⟩, hs⟩
  · cases h; exact hs
  · cases h; exact stackKeyed_cons.2 hs
  · cases h; exact hs
  · cases h; exact wellKeyed_complete (wellKeyed_obj.2 hs.1) hs.2
  · cases h

theorem wellKeyed_of_run {text : List Char} {v : Json} (hs : s.WellKeyed)
    (h : run limits s text = .ok v) : v.WellKeyed := by
  fun_induction run limits s text with
  | case1 => cases h; exact hs
  | case2 => cases h
  | case3 => cases h
  | case4 => cases h
  | case5 _ _ _ _ _ _ _ ht _ hstep ih => exact ih (wellKeyed_of_step (wellKeyed_of_tokenAt ht) hs hstep) h

theorem wellKeyed_of_read {text : String} {v : Json} (h : read limits text = .ok v) : v.WellKeyed :=
  wellKeyed_of_run (show (State.value []).WellKeyed from stackKeyed_nil) h

end Provision.Json
