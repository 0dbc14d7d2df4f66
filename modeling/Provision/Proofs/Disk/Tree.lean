import Provision.Disk.Node
import Provision.Proofs.Keyed

/-!
# Trees after a change

What is found in a tree after a node was put or removed at a place: above the place the same change
further down (`get_set_above`), at it the new node (`get_set_self`), and elsewhere what was there
(`get_set_apart`). As long as no directory is replaced, every directory stays one (`KeepsDirs`) and
every other file keeps its content (`get_file_set`).
-/

namespace Provision.Node

variable {n : Node} {m : Option Node} {place l t : List String} {x : String}

theorem setEntry_some (name : String) (m : Node) (es : List (String × Node)) :
    setEntry name (some m) es = put name m es := by
  induction es with
  | nil => rfl
  | cons e es ih =>
    obtain ⟨k, old⟩ := e
    rw [setEntry, put, ih]
    by_cases h : k = name
    · rw [if_pos h, if_pos h, h]; rfl
    · rw [if_neg h, if_neg h]

theorem lookup_setEntry_of_ne {name k : String} (h : k ≠ name) (m : Option Node)
    (es : List (String × Node)) : (setEntry name m es).lookup k = es.lookup k := by
  induction es with
  | nil =>
    cases m with
    | none => rfl
    | some m => exact lookup_cons_of_ne h m []
  | cons e es ih =>
    obtain ⟨k', old⟩ := e
    rw [setEntry]
    by_cases hk : k' = name
    · rw [if_pos hk, hk, lookup_cons_of_ne h]
      cases m with
      | none => rfl
      | some m => exact lookup_cons_of_ne h m es
    · rw [if_neg hk, lookup_cons_eq, lookup_cons_eq, ih]

theorem lookup_setEntry_none {es : List (String × Node)} (hk : IsKeyed es) (name : String) :
    (setEntry name none es).lookup name = none := by
  induction es with
  | nil => rfl
  | cons e es ih =>
    obtain ⟨k, old⟩ := e
    obtain ⟨hfresh, hk⟩ := isKeyed_cons.1 hk
    rw [setEntry]
    by_cases h : k = name
    · rw [if_pos h]
      exact lookup_eq_none.2 (h ▸ hfresh)
    · rw [if_neg h, lookup_cons_of_ne (Ne.symm h), ih hk]

@[simp] theorem get_nil (n : Node) : n.get? [] = some n := rfl

theorem get_cons (n : Node) (name : String) (names : List String) :
    n.get? (name :: names) = (n.child? name).bind (·.get? names) := by
  rw [get?]
  cases n.child? name <;> rfl

theorem get_append (n : Node) (l t : List String) :
    n.get? (l ++ t) = (n.get? l).bind (·.get? t) := by
  induction l generalizing n with
  | nil => rfl
  | cons name l ih =>
    rw [List.cons_append, get_cons, get_cons]
    cases n.child? name with
    | none => rfl
    | some c => exact ih c

theorem get_concat (n : Node) (l : List String) (x : String) :
    n.get? (l ++ [x]) = (n.get? l).bind (·.child? x) := by
  rw [get_append]
  congr 1
  funext c
  rw [get_cons]
  cases c.child? x <;> rfl

theorem get_concat_of_dir {es : List (String × Node)} (h : n.get? l = some (.dir es)) (x : String) :
    n.get? (l ++ [x]) = es.lookup x := by
  rw [get_concat, h]
  rfl

theorem get_file_of_ne (mode : Nat) (c : Content) (h : t ≠ []) : (file mode c).get? t = none := by
  obtain ⟨x, xs, rfl⟩ := List.exists_cons_of_ne_nil h
  rfl

theorem isDir_of_get_append (h : (n.get? (l ++ t)).isSome = true) (ht : t ≠ []) :
    ∃ es, n.get? l = some (.dir es) := by
  rw [get_append] at h
  cases hn : n.get? l with
  | none => rw [hn] at h; cases h
  | some c =>
    cases c with
    | file mode c =>
      rw [hn, Option.bind_some, get_file_of_ne mode c ht] at h
      cases h
    | dir es => exact ⟨es, rfl⟩

/-! ### After a change -/

theorem set_cons_of_ne (es : List (String × Node)) (name : String) (ht : t ≠ []) :
    (Node.dir es).set m (name :: t) =
      match es.lookup name with
      | some c => .dir (setEntry name (some (c.set m t)) es)
      | none => .dir es := by
  obtain ⟨x, xs, rfl⟩ := List.exists_cons_of_ne_nil ht
  rfl

theorem set_file (mode : Nat) (c : Content) (ht : t ≠ []) : (file mode c).set m t = file mode c := by
  obtain ⟨x, xs, rfl⟩ := List.exists_cons_of_ne_nil ht
  cases xs <;> rfl

theorem set_dir (es : List (String × Node)) (ht : t ≠ []) :
    ∃ es', (Node.dir es).set m t = .dir es' := by
  obtain ⟨x, xs, rfl⟩ := List.exists_cons_of_ne_nil ht
  cases xs with
  | nil => exact ⟨_, rfl⟩
  | cons y ys =>
    rw [set_cons_of_ne es x (List.cons_ne_nil y ys)]
    split <;> exact ⟨_, rfl⟩

theorem set_entry (es : List (String × Node)) (x : String) (c : Node) :
    (Node.dir es).set (some c) [x] = .dir (put x c es) := by
  rw [set, setEntry_some]

theorem set_below {es : List (String × Node)} {c : Node} (h : es.lookup x = some c) (ht : t ≠ []) :
    (Node.dir es).set m (x :: t) = .dir (put x (c.set m t) es) := by
  rw [set_cons_of_ne es x ht, h, ← setEntry_some]

theorem setEntry_none_put {es : List (String × Node)} (c : Node) (h : x ∉ es.map (·.1)) :
    setEntry x none (put x c es) = es := by
  induction es with
  | nil => rw [put, setEntry, if_pos rfl]; rfl
  | cons e es ih =>
    obtain ⟨k, old⟩ := e
    rw [List.map_cons, List.mem_cons, not_or] at h
    rw [put, if_neg (Ne.symm h.1), setEntry, if_neg (Ne.symm h.1), ih h.2]

theorem get_set_above (n : Node) (m : Option Node) (l : List String) (ht : t ≠ []) :
    (n.set m (l ++ t)).get? l = (n.get? l).map (Node.set m t) := by
  induction l generalizing n with
  | nil => rfl
  | cons name l ih =>
    have hlt : l ++ t ≠ [] := by simp [ht]
    rw [List.cons_append, get_cons, get_cons]
    cases n with
    | file mode c => rw [set_file mode c (List.cons_ne_nil _ _)]; rfl
    | dir es =>
      rw [set_cons_of_ne es name hlt]
      cases hc : es.lookup name with
      | none => simp [child?, entries, hc]
      | some c => simp [child?, entries, hc, setEntry_some, lookup_put, ih]

theorem get_set_self {es : List (String × Node)} (h : n.get? l = some (.dir es)) (x : String)
    (c : Node) : (n.set (some c) (l ++ [x])).get? (l ++ [x]) = some c := by
  rw [get_concat, get_set_above n (some c) l (List.cons_ne_nil x []), h]
  simp [set, child?, entries, setEntry_some, lookup_put]

theorem get_set_none {es : List (String × Node)} (h : n.get? l = some (.dir es)) (hk : IsKeyed es)
    (x : String) : (n.set none (l ++ [x])).get? (l ++ [x]) = none := by
  rw [get_concat, get_set_above n none l (List.cons_ne_nil x []), h]
  exact lookup_setEntry_none hk x

theorem get_set_of_isSome (h : (n.get? place).isSome = true) (c : Node) :
    (n.set (some c) place).get? place = some c := by
  rcases List.eq_nil_or_concat place with rfl | ⟨l, x, rfl⟩
  · rfl
  · rw [List.concat_eq_append] at h ⊢
    obtain ⟨es, hes⟩ := isDir_of_get_append h (List.cons_ne_nil x [])
    exact get_set_self hes x c

theorem get_set_apart (n : Node) (m : Option Node) (h1 : ¬ place <+: l) (h2 : ¬ l <+: place) :
    (n.set m place).get? l = n.get? l := by
  induction place generalizing n l with
  | nil => exact absurd (List.nil_prefix) h1
  | cons name place ih =>
    cases l with
    | nil => exact absurd (List.nil_prefix) h2
    | cons name' l =>
      cases n with
      | file mode c => rw [set_file mode c (List.cons_ne_nil _ _)]
      | dir es =>
        rw [get_cons, get_cons]
        by_cases hp : place = []
        · subst hp
          have hne : name' ≠ name := by
            rintro rfl
            exact h1 (by simp)
          simp only [set, child?, entries, lookup_setEntry_of_ne hne]
        · rw [set_cons_of_ne es name hp]
          cases hc : es.lookup name with
          | none => rfl
          | some c =>
            simp only [child?, entries]
            by_cases hne : name' = name
            · subst hne
              rw [setEntry_some, lookup_put, if_pos rfl, hc, Option.bind_some, Option.bind_some]
              refine ih c (fun h => h1 ?_) fun h => h2 ?_
              · simpa using h
              · simpa using h
            · rw [lookup_setEntry_of_ne hne]

/-- Every directory of the first tree is one in the second. -/
def KeepsDirs (n n' : Node) : Prop :=
  ∀ l es, n.get? l = some (.dir es) → ∃ es', n'.get? l = some (.dir es')

theorem KeepsDirs.refl (n : Node) : KeepsDirs n n := fun _ es h => ⟨es, h⟩

theorem KeepsDirs.trans {n' n'' : Node} (h : KeepsDirs n n') (h' : KeepsDirs n' n'') :
    KeepsDirs n n'' := by
  intro l es hl
  obtain ⟨es', hl'⟩ := h l es hl
  exact h' l es' hl'

/-- No directory is at the place. -/
def NoDirAt (n : Node) (place : List String) : Prop :=
  ∀ es, n.get? place ≠ some (.dir es)

theorem noDirAt_of_file {mode : Nat} {c : Content} (h : n.get? l = some (.file mode c)) : n.NoDirAt l := by
  intro es hes
  rw [h] at hes
  cases hes

theorem get_append_none (h : n.NoDirAt l) (ht : t ≠ []) : n.get? (l ++ t) = none := by
  cases hn : n.get? (l ++ t) with
  | none => rfl
  | some c =>
    obtain ⟨es, hes⟩ := isDir_of_get_append (by rw [hn]; rfl) ht
    exact absurd hes (h es)

theorem NoDirAt.eq_of_above (h : n.NoDirAt place) (hl : (n.get? l).isSome = true) (hp : place <+: l) :
    place = l := by
  obtain ⟨t, rfl⟩ := hp
  by_cases ht : t = []
  · rw [ht, List.append_nil]
  · rw [get_append_none h ht] at hl
    cases hl

theorem place_cases (place l : List String) :
    place = l ∨ (∃ t, t ≠ [] ∧ l = place ++ t) ∨ (∃ t, t ≠ [] ∧ place = l ++ t) ∨
      (¬ place <+: l ∧ ¬ l <+: place) := by
  by_cases hbelow : place <+: l
  · obtain ⟨_ | ⟨x, t⟩, rfl⟩ := hbelow
    · exact .inl (List.append_nil place).symm
    · exact .inr (.inl ⟨x :: t, List.cons_ne_nil x t, rfl⟩)
  · by_cases habove : l <+: place
    · obtain ⟨_ | ⟨x, t⟩, rfl⟩ := habove
      · exact .inl (List.append_nil l)
      · exact .inr (.inr (.inl ⟨x :: t, List.cons_ne_nil x t, rfl⟩))
    · exact .inr (.inr (.inr ⟨hbelow, habove⟩))

theorem keepsDirs_set (m : Option Node) (h : n.NoDirAt place) : KeepsDirs n (n.set m place) := by
  intro l es hl
  rcases place_cases place l with rfl | ⟨t, ht, rfl⟩ | ⟨t, ht, rfl⟩ | ⟨hbelow, habove⟩
  · exact absurd hl (h es)
  · cases (get_append_none h ht).symm.trans hl
  · obtain ⟨es', hes'⟩ := set_dir (m := m) es ht
    exact ⟨es', by rw [get_set_above n m l ht, hl, Option.map_some, hes']⟩
  · exact ⟨es, by rw [get_set_apart n m hbelow habove, hl]⟩

theorem get_file_set {mode : Nat} {c : Content} (m : Option Node) (h : n.NoDirAt place)
    (hl : n.get? l = some (.file mode c)) (hne : place ≠ l) :
    (n.set m place).get? l = some (.file mode c) := by
  rcases place_cases place l with rfl | ⟨t, ht, rfl⟩ | ⟨t, ht, rfl⟩ | ⟨hbelow, habove⟩
  · exact absurd rfl hne
  · cases (get_append_none h ht).symm.trans hl
  · rw [get_set_above n m l ht, hl, Option.map_some, set_file mode c ht]
  · rw [get_set_apart n m hbelow habove, hl]

end Provision.Node
