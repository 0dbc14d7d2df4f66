import Provision.Proofs.Disk.Room

/-!
# Shapes of trees

The shape of a tree is where it has files and where it has directories, with which names in them
(`Node.SameShape`). A file that gets another content leaves the shape as it is, so a disk to which only a
log has been added has the shape it had (`Disk.Grown`).
-/

namespace Provision

namespace Node

variable {n n' n'' : Node} {place l t : List String} {es : List (String × Node)}

/-- A file is at the place. -/
def FileAt (n : Node) (l : List String) : Prop :=
  ∃ mode c, n.get? l = some (.file mode c)

/-- The names in a directory; a file has none. -/
def names? : Node → Option (List String)
  | file _ _ => none
  | dir es => some (es.map (·.1))

/-- Both trees have files at the same places, and directories with the same names. -/
def SameShape (n n' : Node) : Prop :=
  ∀ l, (n'.get? l).map names? = (n.get? l).map names?

/-- What holds of every tree: the names in a directory are names of entries, and no two are the same. -/
def IsTree (n : Node) : Prop :=
  ∀ l es, n.get? l = some (.dir es) → IsKeyed es ∧ ∀ x ∈ es.map (·.1), Path.IsEntry x

theorem isTree_file (mode : Nat) (c : Content) : (file mode c).IsTree := by
  intro l es hl
  cases l with
  | nil => cases hl
  | cons x xs => cases hl

theorem isTree_dir (hk : IsKeyed es) (hnames : ∀ x ∈ es.map (·.1), Path.IsEntry x)
    (hes : ∀ e ∈ es, e.2.IsTree) : (dir es).IsTree := by
  intro l es' hl
  cases l with
  | nil =>
    cases hl
    exact ⟨hk, hnames⟩
  | cons x xs =>
    rw [get_cons] at hl
    obtain ⟨c, hc, hl⟩ := Option.bind_eq_some_iff.1 hl
    exact hes _ (mem_of_lookup hc) xs es' hl

theorem isTree_dir_of_mem {names : List String} (h : ∀ x ∈ names, Path.IsEntry x) (es : List (String × Node))
    (hk : IsKeyed es) (hnames : ∀ x ∈ es.map (·.1), x ∈ names) (hes : ∀ e ∈ es, e.2.IsTree) : (dir es).IsTree :=
  isTree_dir hk (fun x hx => h x (hnames x hx)) hes

namespace SameShape

theorem refl (n : Node) : SameShape n n := fun _ => rfl

theorem trans (h : SameShape n n') (h' : SameShape n' n'') : SameShape n n'' :=
  fun l => (h' l).trans (h l)

theorem isSome (h : SameShape n n') (l : List String) : (n'.get? l).isSome = (n.get? l).isSome := by
  have hl := congrArg Option.isSome (h l)
  rwa [Option.isSome_map, Option.isSome_map] at hl

theorem dir (h : SameShape n n') (hl : n.get? l = some (.dir es)) :
    ∃ es', n'.get? l = some (.dir es') ∧ es'.map (·.1) = es.map (·.1) := by
  have hnames := h l
  rw [hl] at hnames
  obtain ⟨c, hc, hc'⟩ := Option.map_eq_some_iff.1 hnames
  cases c with
  | file mode c => cases hc'
  | dir es' => exact ⟨es', hc, Option.some.inj hc'⟩

theorem symm (h : SameShape n n') : SameShape n' n := fun l => (h l).symm

theorem fileAt (h : SameShape n n') (l : List String) : n'.FileAt l ↔ n.FileAt l := by
  have hone : ∀ {n n' : Node}, SameShape n n' → n.FileAt l → n'.FileAt l := by
    rintro n n' h ⟨mode, c, hl⟩
    have hnames := h l
    rw [hl] at hnames
    obtain ⟨c', hc, hc'⟩ := Option.map_eq_some_iff.1 hnames
    cases c' with
    | file mode' c' => exact ⟨mode', c', hc⟩
    | dir es => cases hc'
  exact ⟨hone h.symm, hone h⟩

theorem keepsDirs (h : SameShape n n') : KeepsDirs n n' := fun _ _ hl =>
  let ⟨es', hes', _⟩ := h.dir hl
  ⟨es', hes'⟩

theorem isTree (h : SameShape n n') (hn : n.IsTree) : n'.IsTree := by
  intro l es hl
  obtain ⟨es₀, hes₀, hnames⟩ := h.symm.dir hl
  have hes := hn l es₀ hes₀
  rwa [IsKeyed, hnames] at hes

end SameShape

theorem names_set (h : ((Node.dir es).get? t).isSome = true) (ht : t ≠ []) (c : Node) :
    ((Node.dir es).set (some c) t).names? = (Node.dir es).names? := by
  obtain ⟨x, xs, rfl⟩ := List.exists_cons_of_ne_nil ht
  rw [get_cons] at h
  cases hx : es.lookup x with
  | none =>
    rw [child?, entries, hx] at h
    cases h
  | some old =>
    have hmem : x ∈ es.map (·.1) := List.mem_map.2 ⟨(x, old), mem_of_lookup hx, rfl⟩
    by_cases hxs : xs = []
    · rw [hxs, set_entry, names?, keys_put, if_pos hmem]
      rfl
    · rw [set_below hx hxs, names?, keys_put, if_pos hmem]
      rfl

theorem sameShape_set (h : n.FileAt place) (mode : Nat) (c : Content) :
    SameShape n (n.set (some (.file mode c)) place) := by
  obtain ⟨mode₀, c₀, hfile⟩ := h
  have hset := get_set_of_isSome (by rw [hfile]; rfl) (.file mode c)
  intro l
  rcases place_cases place l with rfl | ⟨t, ht, rfl⟩ | ⟨t, ht, rfl⟩ | ⟨hbelow, habove⟩
  · rw [hset, hfile]
    rfl
  · rw [get_append, get_append, hset, hfile, Option.bind_some, Option.bind_some, get_file_of_ne _ _ ht,
      get_file_of_ne _ _ ht]
  · have hsome : (n.get? (l ++ t)).isSome = true := by rw [hfile]; rfl
    obtain ⟨es, hes⟩ := isDir_of_get_append hsome ht
    rw [get_append, hes, Option.bind_some] at hsome
    rw [get_set_above n _ l ht, hes, Option.map_some, Option.map_some, Option.map_some,
      names_set hsome ht]
  · rw [get_set_apart n _ hbelow habove]

end Node

namespace Disk

variable {d d' d'' : Disk} {l : List String}

/-- Only the held file has another content. -/
structure Grown (d d' : Disk) : Prop where
  cwd : d'.cwd = d.cwd
  held : d'.held = d.held
  shape : Node.SameShape d.root d'.root
  node : ∀ l, (∀ t, d.held = some t → ¬ l <+: t) → d'.root.get? l = d.root.get? l

namespace Grown

theorem refl (d : Disk) : Grown d d := ⟨rfl, rfl, .refl _, fun _ _ => rfl⟩

theorem trans (h : Grown d d') (h' : Grown d' d'') : Grown d d'' := by
  refine ⟨h'.cwd.trans h.cwd, h'.held.trans h.held, h.shape.trans h'.shape, fun l hl => ?_⟩
  exact (h'.node l fun t ht => hl t (h.held ▸ ht)).trans (h.node l hl)

theorem start (h : Grown d d') (p : Path) : d'.start p = d.start p := by
  rw [Disk.start, Disk.start, h.cwd]

theorem wellFormed (h : Grown d d') (hd : d.WellFormed) : d'.WellFormed := by
  refine ⟨h.cwd.symm ▸ hd.cwd, fun l hl => ?_⟩
  exact (h.shape.fileAt l).2 (hd.held l (h.held ▸ hl))

theorem leadsTo {p : Path} (h : Grown d d') (hp : d.LeadsTo p l) : d'.LeadsTo p l := by
  obtain ⟨es, hp⟩ := hp
  rw [LeadsTo, h.start]
  exact walk_dir_keepsDirs h.shape.keepsDirs hp

end Grown

theorem grown_append (d : Disk) (bytes : ByteArray) : Grown d (d.append bytes) := by
  unfold append
  split
  · exact .refl d
  · rename_i place hp
    split
    · rename_i mode c hc
      have hfile : d.root.FileAt place := ⟨mode, c, hc⟩
      refine ⟨rfl, rfl, Node.sameShape_set hfile _ _, fun l hl => ?_⟩
      have hnot := hl place hp
      rcases Node.place_cases place l with rfl | ⟨t, ht, rfl⟩ | ⟨t, -, rfl⟩ | ⟨hbelow, habove⟩
      · exact absurd (List.prefix_refl place) hnot
      · -- Below a file there was nothing, and there is nothing.
        have hset := Node.get_set_of_isSome (by rw [hc]; rfl)
          (.file mode (.bytes (c.toBytes ++ bytes)))
        rw [Node.get_append, Node.get_append, hset, hc, Option.bind_some, Option.bind_some,
          Node.get_file_of_ne _ _ ht, Node.get_file_of_ne _ _ ht]
      · exact absurd (List.prefix_append l t) hnot
      · exact Node.get_set_apart _ _ hbelow habove
    · exact .refl d

end Disk

end Provision
