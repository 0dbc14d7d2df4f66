import Provision.Proofs.Disk.Leaves

/-!
# Taking back what was put

A file that was put where nothing was, whatever has been written to it since, leaves no trace when it is removed:
of changes at one place only the last is left (`Node.set_set`), and to remove what is not there changes nothing
(`Node.set_none_of_free`). So the disk is what it was before (`Finds.run_unlink_temp`).
-/

namespace Provision

namespace Node

variable {n : Node} {place : List String} {name : String}

theorem setEntry_put (m : Option Node) (c : Node) (es : List (String × Node)) :
    setEntry name m (put name c es) = setEntry name m es := by
  induction es with
  | nil =>
    rw [put, setEntry, setEntry, if_pos rfl, List.append_nil]
  | cons e es ih =>
    obtain ⟨k, old⟩ := e
    by_cases h : k = name
    · rw [put, if_pos h, setEntry, setEntry, if_pos h, if_pos h]
    · rw [put, if_neg h, setEntry, setEntry, if_neg h, if_neg h, ih]

theorem setEntry_none_of_not_mem {es : List (String × Node)} (h : es.lookup name = none) :
    setEntry name none es = es := by
  induction es with
  | nil => rfl
  | cons e es ih =>
    obtain ⟨k, old⟩ := e
    by_cases hk : name = k
    · rw [hk, List.lookup_cons_self] at h
      cases h
    · rw [lookup_cons_of_ne hk] at h
      rw [setEntry, if_neg (Ne.symm hk), ih h]

theorem set_set (hp : place ≠ []) (c : Node) (m : Option Node) :
    (n.set (some c) place).set m place = n.set m place := by
  induction place generalizing n with
  | nil => exact absurd rfl hp
  | cons x place ih =>
    cases n with
    | file mode b => rw [set_file mode b (List.cons_ne_nil x place)]
    | dir es =>
      by_cases hplace : place = []
      · subst hplace
        rw [set_entry, set, setEntry_put, set]
      · cases hx : es.lookup x with
        | none => simp only [set_cons_of_ne es x hplace, hx]
        | some old =>
          have hput : (put x (old.set (some c) place) es).lookup x = some (old.set (some c) place) := by
            rw [lookup_put, if_pos rfl]
          rw [set_below hx hplace, set_below hput hplace, put_put, ih hplace, ← set_below hx hplace]

theorem set_none_of_free (h : n.get? place = none) : n.set none place = n := by
  induction place generalizing n with
  | nil => cases h
  | cons x place ih =>
    cases n with
    | file mode b => rw [set_file mode b (List.cons_ne_nil x place)]
    | dir es =>
      have hchild : (es.lookup x).bind (·.get? place) = none := by rwa [get_cons] at h
      by_cases hplace : place = []
      · subst hplace
        rw [set, setEntry_none_of_not_mem]
        cases hx : es.lookup x with
        | none => rfl
        | some old =>
          rw [hx] at hchild
          cases hchild
      · cases hx : es.lookup x with
        | none => rw [set_cons_of_ne es x hplace, hx]
        | some old =>
          rw [hx] at hchild
          rw [set_below hx hplace, ih hchild, put_self hx]

end Node

namespace Disk

variable {d d' : Disk} {p : Path} {l place : List String} {mode : Nat} {c : Content} {u : Unit}

theorem WellFormed.held_elsewhere (hd : d.WellFormed) (h : d.root.get? place = none) :
    d.held.filter (!place.isPrefixOf ·) = d.held := by
  cases hheld : d.held with
  | none => rfl
  | some l =>
    simp [Option.filter, hd.not_below h hheld]

theorem run_unlink (h : d.Finds p (.found l (.file mode c))) :
    (unlink p).run d = (.ok (), { d.setAt l none with held := d.held.filter (!l.isPrefixOf ·) }) := by
  rw [unlink, run_find_bind h]
  rfl

theorem Finds.setAt_setAt (h : d.Finds p (.absent place)) (n : Node) (m : Option Node) :
    (d.setAt place (some n)).setAt place m = d.setAt place m := by
  have hne : place ≠ [] := by
    rintro rfl
    cases get_absent h.leads
  simp only [setAt, Node.set_set hne]

/-- A file that came where nothing was is removed, and the disk is as it was without it. -/
theorem Finds.run_unlink_temp (hd : d.WellFormed) (h : d.Finds p (.absent place)) (mode : Nat) (c : Content) :
    (unlink p).run (d.setAt place (some (.file mode c))) = (.ok (), d) := by
  have hfree := get_absent h.leads
  rw [run_unlink (h.setAt_absent (.file mode c)), h.setAt_setAt, setAt_held, hd.held_elsewhere hfree, setAt,
    Node.set_none_of_free hfree]

end Disk

end Provision
