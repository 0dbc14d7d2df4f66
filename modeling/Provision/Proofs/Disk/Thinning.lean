import Provision.Proofs.Disk.Creation
import Provision.Proofs.Disk.Footprint

/-!
# Removals that are stopped

The removal of a directory may be refused, or stopped where some of the tree is left. Else it does what it does where
the system has no troubles (`removeTree_found`). What is left of a tree was in it before (`Remnant`).
-/

namespace Provision

namespace Node

variable {n m x : Node} {keeps : List String → Bool} {here t : List String} {es : List (String × Node)}

theorem lookup_leftEntries (h : IsKeyed es) (k : String) :
    (leftEntries keeps here es).lookup k = (es.lookup k).bind fun n => n.left keeps (here ++ [k]) := by
  induction es with
  | nil => rfl
  | cons e es ih =>
    obtain ⟨k', n⟩ := e
    obtain ⟨hfresh, hes⟩ := isKeyed_cons.1 h
    rw [leftEntries, lookup_cons_eq]
    by_cases hk : k = k'
    · subst hk
      rw [if_pos rfl, Option.bind_some]
      cases hleft : n.left keeps (here ++ [k]) with
      | some m => exact List.lookup_cons_self
      | none =>
        -- The name is not that of an entry behind the one that is gone.
        rw [ih hes, lookup_eq_none.2 hfresh]
        rfl
    · rw [if_neg hk, ← ih hes]
      cases n.left keeps (here ++ [k']) with
      | some m => exact lookup_cons_of_ne hk m _
      | none => rfl

theorem left_eq_some (h : n.left keeps here = some m) :
    (n = m ∧ n.isFile) ∨ ∃ es, n = .dir es ∧ m = .dir (leftEntries keeps here es) := by
  cases n with
  | file mode c =>
    rw [left] at h
    split at h
    · exact .inl ⟨Option.some.inj h, rfl⟩
    · cases h
  | dir es =>
    rw [left] at h
    split at h
    · exact .inr ⟨es, rfl, (Option.some.inj h).symm⟩
    · cases h

theorem stands_left (htree : (dir es).IsTree) (h : (dir (leftEntries keeps here es)).get? t = some x) :
    Stands False False ((dir es).get? t) (some x) := by
  induction t generalizing es here with
  | nil =>
    obtain rfl := Option.some.inj h
    exact .dir
  | cons k t ih =>
    obtain ⟨m, hm, h⟩ := Option.bind_eq_some_iff.1 ((get_cons _ k t).symm.trans h)
    obtain ⟨n, hn, hleft⟩ := Option.bind_eq_some_iff.1 ((lookup_leftEntries (htree [] es rfl).1 k).symm.trans hm)
    have hchild : ∀ t, (dir es).get? (k :: t) = n.get? t := fun t => by
      rw [get_cons, show (dir es).child? k = some n from hn, Option.bind_some]
    rw [hchild]
    rcases left_eq_some hleft with ⟨rfl, -⟩ | ⟨es', rfl, rfl⟩
    · rw [h]
      exact .refl _
    · exact ih (fun l es₁ hl => htree (k :: l) es₁ ((hchild l).trans hl)) h

end Node

namespace Disk

variable {d d' d'' : Disk} {p : Path} {place : List String} {es : List (String × Node)} {troubles : Troubles}
  {r : Refusal}

/-- Whatever is at the place or below it was there, but for what has been added to a file that is held. No file is
held that was not. -/
structure Remnant (place : List String) (d d' : Disk) : Prop where
  held : ∀ l, d'.held = some l → d.held = some l
  node : ∀ t n, d'.root.get? (place ++ t) = some n →
    Node.Stands False (d.held = some (place ++ t)) (d.root.get? (place ++ t)) (some n)

namespace Remnant

theorem of_footprint (h : Footprint (fun _ => False) (fun _ => False) d d') (place : List String) :
    Remnant place d d' :=
  ⟨h.held, fun t _ hn => hn ▸ h.stands (place ++ t) id⟩

theorem refl (place : List String) (d : Disk) : Remnant place d d :=
  of_footprint (.refl d) place

theorem trans (h : Remnant place d d') (h' : Remnant place d' d'') : Remnant place d d'' := by
  refine ⟨fun l hl => h.held l (h'.held l hl), fun t n hn => ?_⟩
  have hstands := h'.node t n hn
  cases hbetween : d'.root.get? (place ++ t) with
  | none =>
    rw [hbetween] at hstands
    cases hstands with
    | made hneeded => exact hneeded.elim
  | some m =>
    rw [hbetween] at hstands
    exact (h.node t m hbetween).trans hstands (h.held _)

end Remnant

/-- The system refuses to remove what a path leads to, or to look there, or stops a removal there. -/
def Troubles.Stops (troubles : Troubles) (p : Path) (r : Refusal) : Prop :=
  ∃ d, troubles.refuses .look p d = some r ∨ troubles.refuses .removeTree p d = some r ∨
    ∃ keeps, troubles.leaves p d = some (keeps, r)

theorem Troubles.not_stops_none (p : Path) (r : Refusal) : ¬ Troubles.none.Stops p r := by
  rintro ⟨d, h | h | ⟨keeps, h⟩⟩ <;> cases h

/-- The operation has been stopped, with some left of what was at the place. -/
def IsStopped (troubles : Troubles) (p : Path) (place : List String) (x : DiskM Unit) (d : Disk) : Prop :=
  ∃ r d', troubles.Stops p r ∧ x.run d = (.error (.refused r.errno r.path none), d') ∧ Remnant place d d'

theorem remnant_thin (keeps : List String → Bool) (hget : d.root.get? place = some (.dir es))
    (htree : d.root.IsTree) : Remnant place d ((thin place keeps es).run d).2 := by
  have hset := Node.get_set_of_isSome (by rw [hget]; rfl) (.dir (Node.leftEntries keeps [] es))
  refine ⟨fun l hl => (Option.filter_eq_some_iff.1 hl).1, fun t n hn => ?_⟩
  change (d.root.set _ place).get? (place ++ t) = some n at hn
  rw [Node.get_append, hset] at hn
  have hbelow : ∀ t, d.root.get? (place ++ t) = (Node.dir es).get? t := fun t => by
    rw [Node.get_append, hget, Option.bind_some]
  have hdir : (Node.dir es).IsTree := fun l es' hl => htree (place ++ l) es' ((hbelow l).trans hl)
  rw [hbelow]
  exact (Node.Stands.refl _).trans (Node.stands_left hdir hn) False.elim

theorem removeTree_found (htree : d.root.IsTree) (hf : d.Finds p (.found place (.dir es))) :
    IsStopped troubles p place (removeTree p troubles) d ∨ (removeTree p troubles).run d = (removeTree p).run d := by
  have hfind := run_find_refuses hf.noNul (troubles.refuses .removeTree p) d
  cases hrefuses : troubles.refuses .removeTree p d with
  | some r =>
    rw [hrefuses] at hfind
    exact .inl ⟨r, d, ⟨d, .inr (.inl hrefuses)⟩, by rw [removeTree, run_bind_error hfind], .refl place d⟩
  | none =>
    rw [hrefuses, run_find hf] at hfind
    cases hleaves : troubles.leaves p d with
    | some left =>
      obtain ⟨keeps, r⟩ := left
      have hthin := remnant_thin keeps (get_of_walk hf.leads) htree
      refine .inl ⟨r, _, ⟨d, .inr (.inr ⟨keeps, hleaves⟩)⟩, ?_, hthin⟩
      rw [removeTree, run_bind_ok hfind]
      dsimp only
      rw [run_bind_ok (run_get d), hleaves]
      rfl
    | none =>
      refine .inr ?_
      rw [removeTree, run_bind_ok hfind, removeTree, run_find_bind hf]
      dsimp only
      rw [run_bind_ok (run_get d), run_bind_ok (run_get d), hleaves]

end Disk

end Provision
