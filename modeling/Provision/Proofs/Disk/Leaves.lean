import Provision.Proofs.Disk.Sparing

/-!
# Changes of single leaves

An operation on one file changes a leaf of the tree: something without entries takes the place of a file or of
nothing. Then whatever is neither at the leaf nor above it stays (`Node.get_set_leaf`), and so does every
other file (`Disk.Alters`). The operations are taken apart here in these terms.
-/

namespace Provision

namespace Node

variable {n : Node} {m : Option Node} {place l t : List String} {x : String}

/-- No directory has two entries of the same name. -/
def Keyed (n : Node) : Prop :=
  ∀ l es, n.get? l = some (.dir es) → IsKeyed es

theorem IsTree.keyed (h : n.IsTree) : n.Keyed := fun l es hl => (h l es hl).1

theorem keyed_file (mode : Nat) (c : Content) : (file mode c).Keyed := fun l es hl =>
  (isTree_file mode c).keyed l es hl

theorem keyed_empty : (dir []).Keyed :=
  (isTree_dir isKeyed_nil nofun nofun).keyed

theorem get_set_cases (hn : n.Keyed) (l : List String) (x : String) :
    (n.set m (l ++ [x])).get? (l ++ [x]) = none ∨ (n.set m (l ++ [x])).get? (l ++ [x]) = m := by
  have habove := get_set_above n m l (List.cons_ne_nil x [])
  rw [get_concat, habove]
  cases hl : n.get? l with
  | none => exact .inl rfl
  | some c =>
    cases c with
    | file mode c => exact .inl rfl
    | dir es =>
      right
      cases m with
      | none => exact lookup_setEntry_none (hn l es hl) x
      | some m =>
        change (setEntry x (some m) es).lookup x = some m
        rw [setEntry_some, lookup_put, if_pos rfl]

/-- Nothing, a file or an empty directory. -/
def IsLeaf (m : Option Node) : Prop :=
  m = none ∨ (∃ mode c, m = some (file mode c)) ∨ m = some (dir [])

theorem isLeaf_none : IsLeaf none := .inl rfl

theorem isLeaf_file (mode : Nat) (c : Content) : IsLeaf (some (file mode c)) := .inr (.inl ⟨mode, c, rfl⟩)

theorem isLeaf_empty : IsLeaf (some (dir [])) := .inr (.inr rfl)

theorem IsLeaf.get (h : IsLeaf m) (ht : t ≠ []) : m.bind (·.get? t) = none := by
  rcases h with rfl | ⟨mode, c, rfl⟩ | rfl
  · rfl
  · exact get_file_of_ne mode c ht
  · obtain ⟨x, xs, rfl⟩ := List.exists_cons_of_ne_nil ht
    rfl

theorem IsLeaf.keyed {c : Node} (h : IsLeaf m) (hc : m = some c) : c.Keyed := by
  rcases h with rfl | ⟨mode, c', rfl⟩ | rfl
  · cases hc
  · obtain rfl := Option.some.inj hc
    exact keyed_file mode c'
  · obtain rfl := Option.some.inj hc
    exact keyed_empty

/-- A leaf that takes the place of a leaf changes nothing but what is at the place and above it. -/
theorem get_set_leaf (hn : n.Keyed) (hno : n.NoDirAt place) (hm : IsLeaf m) (hl : ¬ l <+: place) :
    (n.set m place).get? l = n.get? l := by
  by_cases hbelow : place <+: l
  · obtain ⟨t, rfl⟩ := hbelow
    have ht : t ≠ [] := by
      rintro rfl
      exact hl (by simp)
    rw [get_append_none hno ht, get_append]
    rcases List.eq_nil_or_concat place with rfl | ⟨l', x, rfl⟩
    · cases n with
      | dir es => exact absurd rfl (hno es)
      | file mode c =>
        cases m with
        | none => exact get_file_of_ne mode c ht
        | some m => exact hm.get ht
    · rw [List.concat_eq_append]
      rcases get_set_cases (m := m) hn l' x with hnone | hsome
      · rw [hnone]
        rfl
      · rw [hsome]
        exact hm.get ht
  · exact get_set_apart n m hbelow hl

theorem isKeyed_setEntry {es : List (String × Node)} (hk : IsKeyed es) (x : String) (m : Option Node) :
    IsKeyed (setEntry x m es) := by
  cases m with
  | some m =>
    rw [setEntry_some]
    exact isKeyed_put x m hk
  | none =>
    have hsub : (setEntry x none es).Sublist es := by
      induction es with
      | nil => exact .refl _
      | cons e es ih =>
        obtain ⟨k, old⟩ := e
        rw [setEntry]
        split
        · exact List.sublist_cons_self _ _
        · exact (ih (isKeyed_cons.1 hk).2).cons_cons _
    exact hk.sublist (hsub.map _)

/-- In every directory the names have the property, and no two are the same. -/
def Named (P : String → Prop) (n : Node) : Prop :=
  ∀ l es, n.get? l = some (.dir es) → IsKeyed es ∧ ∀ x ∈ es.map (·.1), P x

theorem keyed_iff_named : n.Keyed ↔ n.Named fun _ => True :=
  ⟨fun h l es hl => ⟨h l es hl, fun _ _ => trivial⟩, fun h l es hl => (h l es hl).1⟩

section

variable {P : String → Prop} {es : List (String × Node)}

theorem named_dir :
    (dir es).Named P ↔ (IsKeyed es ∧ ∀ x ∈ es.map (·.1), P x) ∧ ∀ x c, es.lookup x = some c → c.Named P := by
  constructor
  · intro h
    refine ⟨h [] es rfl, fun x c hc l es' hl => h (x :: l) es' ?_⟩
    rw [get_cons, child?, entries, hc]
    exact hl
  · rintro ⟨hk, hes⟩ l es' hl
    cases l with
    | nil =>
      cases hl
      exact hk
    | cons x xs =>
      rw [get_cons] at hl
      obtain ⟨c, hc, hl⟩ := Option.bind_eq_some_iff.1 hl
      exact hes x c hc xs es' hl

theorem names_setEntry (x y : String) (m : Option Node) (h : y ∈ (setEntry x m es).map (·.1)) :
    y ∈ es.map (·.1) ∨ (y = x ∧ m.isSome = true) := by
  induction es with
  | nil =>
    cases m with
    | none => cases h
    | some c => exact .inr ⟨List.mem_singleton.1 h, rfl⟩
  | cons e es ih =>
    obtain ⟨k, old⟩ := e
    rw [setEntry] at h
    rw [List.map_cons, List.mem_cons]
    split at h
    · cases m with
      | none => exact .inl (.inr h)
      | some c =>
        rcases List.mem_cons.1 h with rfl | h
        · exact .inr ⟨rfl, rfl⟩
        · exact .inl (.inr h)
    · rcases List.mem_cons.1 h with rfl | h
      · exact .inl (.inl rfl)
      · exact (ih h).imp_left .inr

theorem named_setEntry (h : (dir es).Named P) (x : String) (hm : ∀ c, m = some c → c.Named P ∧ P x) :
    (dir (setEntry x m es)).Named P := by
  obtain ⟨⟨hk, hnames⟩, hes⟩ := named_dir.1 h
  refine named_dir.2 ⟨⟨isKeyed_setEntry hk x m, fun y hy => ?_⟩, fun y c hc => ?_⟩
  · rcases names_setEntry x y m hy with hy | ⟨rfl, hsome⟩
    · exact hnames y hy
    · obtain ⟨c, hc⟩ := Option.isSome_iff_exists.1 hsome
      exact (hm c hc).2
  · by_cases hy : y = x
    · subst hy
      cases m with
      | none => cases (lookup_setEntry_none hk y).symm.trans hc
      | some m =>
        rw [setEntry_some, lookup_put, if_pos rfl] at hc
        exact (hm c hc).1
    · rw [lookup_setEntry_of_ne hy] at hc
      exact hes y c hc

/-- What is put into a tree has to have such names too, and the name that it gets has to be one. -/
theorem named_set (hn : n.Named P) (hm : ∀ c, m = some c → c.Named P)
    (hname : ∀ l x, place = l ++ [x] → m.isSome = true → P x) : (n.set m place).Named P := by
  induction place generalizing n with
  | nil =>
    cases m with
    | none => exact hn
    | some c => exact hm c rfl
  | cons x place ih =>
    cases n with
    | file mode c =>
      rw [set_file mode c (List.cons_ne_nil x place)]
      exact hn
    | dir es =>
      by_cases hp : place = []
      · subst hp
        exact named_setEntry hn x fun c hc => ⟨hm c hc, hname [] x rfl (by rw [hc]; rfl)⟩
      · rw [set_cons_of_ne es x hp]
        cases hc : es.lookup x with
        | none => exact hn
        | some c =>
          obtain ⟨⟨-, hnames⟩, hes⟩ := named_dir.1 hn
          refine named_setEntry hn x fun c' hc' => ?_
          obtain rfl := Option.some.inj hc'
          have hmem : x ∈ es.map (·.1) := List.mem_map.2 ⟨(x, c), mem_of_lookup hc, rfl⟩
          exact ⟨ih (hes x c hc) fun l y hl => hname (x :: l) y (congrArg (x :: ·) hl), hnames x hmem⟩

end

theorem keyed_set (hn : n.Keyed) (hm : ∀ c, m = some c → c.Keyed) (place : List String) :
    (n.set m place).Keyed :=
  keyed_iff_named.2 (named_set (keyed_iff_named.1 hn) (fun c hc => keyed_iff_named.1 (hm c hc))
    fun _ _ _ _ => trivial)

theorem isTree_set (hn : n.IsTree) (hm : ∀ c, m = some c → c.IsTree)
    (hname : ∀ l x, place = l ++ [x] → m.isSome = true → Path.IsEntry x) : (n.set m place).IsTree :=
  named_set (P := Path.IsEntry) hn hm hname

end Node

namespace Disk

variable {d d' d'' : Disk} {C C' : List String → Prop} {p q : Path} {l place names : List String} {m : Option Node}
  {spot : Spot} {u : Unit}

/-- Only leaves at the places `C` have changed. -/
structure Alters (C : List String → Prop) (d d' : Disk) : Prop where
  cwd : d'.cwd = d.cwd
  dirs : Node.KeepsDirs d.root d'.root
  keyed : d'.root.Keyed
  file : ∀ l mode c, ¬ C l → d.root.get? l = some (.file mode c) → d'.root.get? l = some (.file mode c)
  node : ∀ l, (∀ place, C place → ¬ l <+: place) → d'.root.get? l = d.root.get? l

namespace Alters

theorem refl (C : List String → Prop) (hk : d.root.Keyed) : Alters C d d :=
  ⟨rfl, .refl _, hk, fun _ _ _ _ h => h, fun _ _ => rfl⟩

theorem trans (h : Alters C d d') (h' : Alters C d' d'') : Alters C d d'' :=
  ⟨h'.cwd.trans h.cwd, h.dirs.trans h'.dirs, h'.keyed,
    fun l mode c hC hl => h'.file l mode c hC (h.file l mode c hC hl),
    fun l hC => (h'.node l hC).trans (h.node l hC)⟩

theorem mono (h : Alters C d d') (hC : ∀ place, C place → C' place) : Alters C' d d' :=
  ⟨h.cwd, h.dirs, h.keyed, fun l mode c hl => h.file l mode c fun hp => hl (hC l hp),
    fun l hl => h.node l fun place hp => hl place (hC place hp)⟩

theorem of_root (h : Alters C d d') (hcwd : d''.cwd = d'.cwd) (hroot : d''.root = d'.root) : Alters C d d'' := by
  obtain ⟨h1, h2, h3, h4, h5⟩ := h
  rw [← hroot] at h2 h3
  exact ⟨hcwd.trans h1, h2, h3, by rwa [hroot], by rwa [hroot]⟩

theorem setAt (hk : d.root.Keyed) (hno : d.root.NoDirAt place) (hm : Node.IsLeaf m) (hC : C place) :
    Alters C d (d.setAt place m) := by
  refine ⟨rfl, Node.keepsDirs_set m hno, Node.keyed_set hk (fun _ => hm.keyed) place, ?_, ?_⟩
  · intro l mode c hl hfile
    refine Node.get_file_set m hno hfile ?_
    rintro rfl
    exact hl hC
  · intro l hl
    exact Node.get_set_leaf hk hno hm (hl place hC)

theorem locate {n : Node} (h : Alters C d d') (hl : d.locate p = .ok spot) (hn : d'.root.get? spot.place = some n) :
    d'.locate p = .ok (.found spot.place n) := by
  have hw := walk_keepsDirs h.dirs (walk_of_locate hl) hn
  rw [Disk.locate] at hl ⊢
  split at hl
  · cases hl
  · rename_i hshort
    rw [if_neg hshort, start_of_cwd h.cwd, hw]

theorem locate_file {mode : Nat} {c : Content} (h : Alters C d d')
    (hl : d.locate p = .ok (.found l (.file mode c))) (hC : ¬ C l) :
    d'.locate p = .ok (.found l (.file mode c)) :=
  h.locate hl (h.file l mode c hC (get_of_walk (walk_of_locate hl)))

theorem leadsTo (h : Alters C d d') (hp : d.LeadsTo p place) : d'.LeadsTo p place := by
  obtain ⟨es, hp⟩ := hp
  rw [LeadsTo, start_of_cwd h.cwd]
  exact walk_dir_keepsDirs h.dirs hp

theorem none_of_none (h : Alters C d d') (hC : ∀ place, C place → d.root.get? place = none)
    (hl : d'.root.get? l = none) : d.root.get? l = none := by
  cases hn : d.root.get? l with
  | none => rfl
  | some n =>
    cases n with
    | dir es =>
      obtain ⟨es', hes'⟩ := h.dirs l es hn
      cases hl.symm.trans hes'
    | file mode c =>
      have hfile := h.file l mode c (fun hp => by cases (hC l hp).symm.trans hn) hn
      cases hl.symm.trans hfile

end Alters

theorem get_set_spot {root root' : Node} {here : List String} (hd : Node.KeepsDirs root root')
    (h : walk root here names = .ok spot) (n : Node) :
    (root'.set (some n) spot.place).get? spot.place = some n := by
  have hput : ∀ {l : List String} {x : String} {es : List (String × Node)}, root.get? l = some (.dir es) →
      (root'.set (some n) (l ++ [x])).get? (l ++ [x]) = some n := by
    intro l x es hl
    obtain ⟨es', hes'⟩ := hd l es hl
    exact Node.get_set_self hes' x n
  cases spot with
  | absent place =>
    obtain ⟨l, x, es, rfl, hl, -⟩ := get_of_walk_absent h
    exact hput hl
  | found place n' =>
    have hn := get_of_walk h
    change (root'.set (some n) place).get? place = some n
    rcases List.eq_nil_or_concat place with rfl | ⟨l, x, rfl⟩
    · rfl
    · rw [List.concat_eq_append] at hn ⊢
      obtain ⟨es, hes⟩ := Node.isDir_of_get_append (by rw [hn]; rfl) (List.cons_ne_nil x [])
      exact hput hes

/-! ### What was done -/

theorem write_eq_ok {c : Content} {mode : Nat} (h : (write p c mode).run d = (.ok u, d')) :
    (∃ place mode₀ c₀, d.locate p = .ok (.found place (.file mode₀ c₀)) ∧
      d' = d.setAt place (some (.file mode₀ c))) ∨
    ∃ place, d.locate p = .ok (.absent place) ∧ d' = d.setAt place (some (.file mode c)) := by
  obtain ⟨spot, hf, h⟩ := find_bind_eq_ok h
  split at h
  · cases h
  · cases h; exact .inl ⟨_, _, _, hf.locate, rfl⟩
  · cases h; exact .inr ⟨_, hf.locate, rfl⟩

theorem unlink_eq_ok (h : (unlink p).run d = (.ok u, d')) :
    d' = d ∨ ∃ place mode c, d.locate p = .ok (.found place (.file mode c)) ∧ d'.cwd = d.cwd ∧
      d'.root = (d.setAt place none).root := by
  obtain ⟨spot, hf, h⟩ := find_bind_eq_ok h
  split at h
  · cases h; exact .inr ⟨_, _, _, hf.locate, rfl, rfl⟩
  · cases h
  · cases h; exact .inl rfl

theorem alters_move {mode : Nat} {c : Content} {source target : List String} (hk : d.root.Keyed)
    (hfile : d.root.get? source = some (.file mode c)) (hno : d.root.NoDirAt target) (hne : target ≠ source)
    (hcwd : d'.cwd = d.cwd)
    (hroot : d'.root = ((d.setAt source none).setAt target (some (.file mode c))).root) :
    Alters (fun l => l = source ∨ l = target) d d' := by
  have hremoved : Alters (fun l => l = source) d (d.setAt source none) :=
    .setAt hk (Node.noDirAt_of_file hfile) Node.isLeaf_none rfl
  have hno' : (d.setAt source none).root.NoDirAt target := by
    have hapart : ¬ target <+: source := fun hp => hne (hno.eq_of_above (by rw [hfile]; rfl) hp)
    intro es hes
    rw [hremoved.node _ fun l hl => hl ▸ hapart] at hes
    exact hno es hes
  have hmoved := Alters.setAt (C := fun l => l = source ∨ l = target) hremoved.keyed hno'
    (Node.isLeaf_file mode c) (.inr rfl)
  exact ((hremoved.mono fun _ => .inl).trans hmoved).of_root hcwd hroot

theorem place_of_absolute (hs : d.start p = []) (hdots : ".." ∉ p.names) (h : d.locate p = .ok spot) :
    spot.place = p.names := by
  rw [place_of_walk hdots (walk_of_locate h), hs, List.nil_append]

theorem Finds.absent_child {name : String} {es : List (String × Node)} (h : d.Finds p (.found l (.dir es)))
    (hs : Path.IsSingle name) (hdots : name ≠ "..") (hfree : name ∉ es.map (·.1))
    (hl : d.locate (p.child name) = .ok spot) : spot = .absent (l ++ [name]) := by
  have hw := walk_of_locate hl
  rw [Path.start_child d _ hs, Path.names_child _ hs] at hw
  obtain ⟨l', es', hl', -, rfl⟩ := walk_concat hdots hw
  cases hl'.symm.trans h.leads
  rw [entrySpot, lookup_eq_none.2 hfree]

theorem reserve_of_createTemp {temp : Path} (h : (createTemp p).run d = (.ok temp, d')) :
    ∃ name, IsTempName name ∧ Path.IsSingle name ∧ temp = (d.absolute p).child name ∧
      d.Finds temp (.absent temp.names) ∧
      d' = d.setAt temp.names (some (.file 0o600 (.bytes .empty))) := by
  rw [createTemp, run_bind_ok (run_get d)] at h
  obtain ⟨es, d₁, hlist, h⟩ := run_bind_eq_ok.1 h
  obtain ⟨rfl, l, es₀, hdir, rfl⟩ := list_eq_ok hlist
  obtain ⟨_, d₂, hwrite, h⟩ := run_bind_eq_ok.1 h
  cases h
  have htemp := isTempName_freshName ((sortByKey es₀).map (·.1))
  have hfresh := (freshName_cases ((sortByKey es₀).map (·.1))).imp_right And.right
  revert hwrite htemp hfresh
  generalize freshName ((sortByKey es₀).map (·.1)) = name
  intro hwrite htemp hfresh
  rcases htemp.cases with rfl | ⟨hs, cs, hcs⟩
  · -- Without a name it would be the directory that is written to.
    rw [Path.child_empty] at hwrite
    rcases write_eq_ok hwrite with ⟨place, mode, c, hl, -⟩ | ⟨place, hl, -⟩
    · cases hdir.locate.symm.trans hl
    · cases hdir.locate.symm.trans hl
  · have hdots : name ≠ ".." := by
      rintro rfl
      cases hcs
    have hne : name ≠ "" := by
      rintro rfl
      cases hcs
    have hfree : name ∉ es₀.map (·.1) := by
      have hnot := hfresh.resolve_left hne
      rwa [((sortByKey_perm es₀).map _).mem_iff] at hnot
    have hup : ".." ∉ ((d.absolute p).child name).names := by
      rw [Path.names_child _ hs, List.mem_append, List.mem_singleton, not_or]
      exact ⟨Path.no_dots_collapse _, hdots.symm⟩
    have hstart : d.start ((d.absolute p).child name) = [] := by
      rw [Path.start_child d _ hs, start_absolute]
    obtain ⟨spot, hf, hput⟩ := find_bind_eq_ok hwrite
    obtain rfl := hdir.absent_child hs hdots hfree hf.locate
    have hplace : l ++ [name] = ((d.absolute p).child name).names := place_of_absolute hstart hup hf.locate
    rw [hplace] at hf hput
    cases hput
    exact ⟨name, htemp, hs, rfl, hf, rfl⟩

end Disk

end Provision
