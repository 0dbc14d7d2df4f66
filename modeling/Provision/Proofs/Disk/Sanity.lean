import Provision.Proofs.Disk.Leaves
import Provision.Proofs.Disk.Replacing

/-!
# Disks that stay sound

A disk is sound when its tree is one, the working directory is given by names of entries, and the held file is a
file (`Disk.Sane`). No operation on a path of proper names (`Path.Clean`) changes that: a new entry gets the last
name of a path that the system has taken, and a file that is removed is not held any more.
-/

namespace Provision

namespace Path

variable {p q : Path}

/-- Every name of the path is the name of one thing. -/
def Clean (p : Path) : Prop :=
  ∀ x ∈ p.names, IsSingle x

theorem Clean.child (h : p.Clean) (x : String) : (p.child x).Clean := by
  intro y hy
  rw [Path.child, join] at hy
  split at hy
  · exact single_of_mem_ofString hy
  · rcases List.mem_append.1 hy with hy | hy
    · exact h y hy
    · exact single_of_mem_ofString hy

theorem Clean.of_names_prefix (h : p.Clean) (hq : q.names <+: p.names) : q.Clean :=
  fun x hx => h x (hq.subset hx)

/-- The last name of the path, if it has one, is the name of one thing. -/
def EndsClean (p : Path) : Prop :=
  ∀ ns x, p.names = ns ++ [x] → IsSingle x

theorem Clean.endsClean (h : p.Clean) : p.EndsClean := by
  intro ns x hx
  refine h x ?_
  rw [hx]
  exact List.mem_append_right ns (List.mem_singleton_self x)

theorem endsClean_child {name : String} (hs : IsSingle name) (p : Path) : (p.child name).EndsClean := by
  intro ns x hx
  rw [names_child p hs] at hx
  obtain ⟨-, hlast⟩ := List.append_inj' hx rfl
  exact List.singleton_inj.1 hlast ▸ hs

end Path

namespace Node

variable {n : Node} {l : List String} {x : String}

theorem IsTree.isEntry (h : n.IsTree) (hl : (n.get? (l ++ [x])).isSome = true) : Path.IsEntry x := by
  obtain ⟨es, hes⟩ := isDir_of_get_append hl (List.cons_ne_nil x [])
  rw [get_concat_of_dir hes] at hl
  obtain ⟨c, hc⟩ := Option.isSome_iff_exists.1 hl
  exact (h l es hes).2 x (List.mem_map.2 ⟨(x, c), mem_of_lookup hc, rfl⟩)

theorem IsTree.isEntry_of_mem (h : n.IsTree) (hl : (n.get? l).isSome = true) (hx : x ∈ l) : Path.IsEntry x := by
  obtain ⟨a, b, rfl⟩ := List.append_of_mem hx
  refine h.isEntry (l := a) ?_
  have hsplit : a ++ x :: b = a ++ [x] ++ b := by simp
  rw [hsplit, get_append] at hl
  obtain ⟨c, hc⟩ := Option.isSome_iff_exists.1 hl
  obtain ⟨c', hc', -⟩ := Option.bind_eq_some_iff.1 hc
  rw [hc']
  rfl

theorem isTree_empty : (dir []).IsTree :=
  isTree_dir isKeyed_nil nofun nofun

end Node

namespace Disk

variable {d d' : Disk} {p q : Path} {l place : List String} {m : Option Node} {mode : Nat} {c : Content} {u : Unit}

theorem name_of_walk_absent {root : Node} {here names : List String} (h : walk root here names = .ok (.absent l)) :
    ∃ l' ns x, l = l' ++ [x] ∧ names = ns ++ [x] ∧ IsPlain x := by
  induction names generalizing here with
  | nil =>
    obtain ⟨n, -, he⟩ := walk_nil_eq_ok h
    cases he
  | cons name rest ih =>
    obtain ⟨es, -, ⟨-, hw⟩ | ⟨hp, ⟨_, -, hw⟩ | ⟨-, rfl, he⟩⟩⟩ := walk_cons_eq_ok h
    · obtain ⟨l', ns, x, hl, rfl, hx⟩ := ih hw
      exact ⟨l', name :: ns, x, hl, rfl, hx⟩
    · obtain ⟨l', ns, x, hl, rfl, hx⟩ := ih hw
      exact ⟨l', name :: ns, x, hl, rfl, hx⟩
    · cases he
      exact ⟨here, [], name, rfl, rfl, hp⟩

theorem Finds.isEntry (h : d.Finds p (.absent l)) (hp : p.EndsClean) :
    ∀ l' x, l = l' ++ [x] → Path.IsEntry x := by
  intro l' x hx
  obtain ⟨l₁, ns, y, rfl, hnames, hplain⟩ := name_of_walk_absent h.leads
  obtain ⟨-, hlast⟩ := List.append_inj' hx rfl
  obtain rfl := List.singleton_inj.1 hlast
  have hmem : y ∈ p.names := by
    rw [hnames]
    exact List.mem_append_right ns (List.mem_singleton_self y)
  have hnul := h.noNul
  rw [Path.hasNul, List.any_eq_false] at hnul
  exact ⟨hp ns y hnames, hplain, by simpa using hnul y hmem⟩

/-- What holds of every disk with a tree of files. -/
structure Sane (d : Disk) : Prop where
  wellFormed : d.WellFormed
  tree : d.root.IsTree

namespace Sane

theorem of_grown (h : d.Sane) (hd : Grown d d') : d'.Sane :=
  ⟨hd.wellFormed h.wellFormed, hd.shape.isTree h.tree⟩

theorem setAt (h : d.Sane) (hno : d.root.NoDirAt place) (hm : ∀ n, m = some n → n.IsTree)
    (hname : ∀ l x, place = l ++ [x] → m.isSome = true → Path.IsEntry x)
    (hheld : d.held = some place → ∃ mode c, (d.root.set m place).get? place = some (.file mode c)) :
    (d.setAt place m).Sane := by
  refine ⟨⟨h.wellFormed.cwd, fun l hl => ?_⟩, Node.isTree_set h.tree hm hname⟩
  by_cases hne : place = l
  · subst hne
    exact hheld hl
  · obtain ⟨mode, c, hfile⟩ := h.wellFormed.held l hl
    exact ⟨mode, c, Node.get_file_set m hno hfile hne⟩

end Sane

theorem Sane.walk_placeOf {n : Node} (h : d.Sane) (hp : ".." ∉ p.names) (hn : d.root.get? (d.placeOf p) = some n) :
    walk d.root (d.start p) p.names = .ok (.found (d.placeOf p) n) := by
  rw [placeOf_of_no_dots d hp] at hn ⊢
  refine walk_place hn fun x hx => ?_
  exact (h.tree.isEntry_of_mem (by rw [hn]; rfl) (List.mem_append_right _ hx)).plain

theorem Sane.finds {n : Node} (h : d.Sane) (hp : ".." ∉ p.names) (hnul : p.hasNul = false)
    (hshort : p.text.utf8ByteSize < pathLimit) (hn : d.root.get? (d.placeOf p) = some n) :
    d.Finds p (.found (d.placeOf p) n) :=
  ⟨hnul, hshort, h.walk_placeOf hp hn⟩

/-- The disk is as sound as it was, in the same working directory, and no file is held that was not held. -/
structure Stays (d d' : Disk) : Prop where
  cwd : d'.cwd = d.cwd
  held : ∀ l, d'.held = some l → d.held = some l
  sane : d.Sane → d'.Sane

namespace Stays

theorem refl (d : Disk) : Stays d d := ⟨rfl, fun _ => id, id⟩

theorem trans {d'' : Disk} (h : Stays d d') (h' : Stays d' d'') : Stays d d'' :=
  ⟨h'.cwd.trans h.cwd, fun l hl => h.held l (h'.held l hl), h'.sane ∘ h.sane⟩

theorem of_grown (h : Grown d d') : Stays d d' :=
  ⟨h.cwd, fun _ hl => h.held ▸ hl, fun hd => hd.of_grown h⟩

end Stays

/-- Nothing has changed but what is at the path, below it or above it, and the log. -/
structure Confined (p : Path) (d d' : Disk) : Prop extends Stays d d' where
  node : ∀ l, Apart (d.placeOf p) l → (∀ t, d.held = some t → ¬ l <+: t) → d'.root.get? l = d.root.get? l

namespace Confined

theorem refl (p : Path) (d : Disk) : Confined p d d := ⟨.refl d, fun _ _ _ => rfl⟩

theorem trans {d'' : Disk} (h : Confined p d d') (h' : Confined p d' d'') : Confined p d d'' := by
  refine ⟨h.toStays.trans h'.toStays, fun l hl hheld => ?_⟩
  rw [h'.node l (placeOf_of_cwd h.cwd p ▸ hl) fun t ht => hheld t (h.held t ht), h.node l hl hheld]

theorem of_grown (p : Path) (h : Grown d d') : Confined p d d' := ⟨.of_grown h, fun l _ => h.node l⟩

theorem of_alters {C : List String → Prop} (hs : Stays d d') (ha : Alters C d d')
    (hC : ∀ l, C l → ∃ t, l <+: d.placeOf p ++ t) : Confined p d d' := by
  refine ⟨hs, fun l hl _ => ha.node l fun place hplace hp => ?_⟩
  obtain ⟨t, ht⟩ := hC place hplace
  rcases List.prefix_or_prefix_of_prefix (hp.trans ht) (List.prefix_append _ t) with h | h
  · exact hl.below h
  · exact hl.above h

end Confined

/-! ### Operations -/

theorem FileSpot.isEntry (h : d.FileSpot p place) (hp : p.EndsClean) (hd : d.root.IsTree) :
    ∀ l x, place = l ++ [x] → Path.IsEntry x := by
  rcases h with h | ⟨mode, c, h⟩
  · exact h.isEntry hp
  · rintro l x rfl
    exact hd.isEntry (by rw [get_of_walk h.leads]; rfl)

theorem PutsFile.sane (h : PutsFile p place mode c d d') (hp : p.EndsClean) (hd : d.Sane) : d'.Sane := by
  rw [h.eq]
  refine hd.setAt h.spot.noDirAt (fun n hn => ?_) (fun l x hx _ => h.spot.isEntry hp hd.tree l x hx)
    fun _ => ⟨mode, c, h.spot.get_setAt _⟩
  obtain rfl := Option.some.inj hn
  exact Node.isTree_file mode c

theorem sane_of_write (h : (write p c mode).run d = (.ok u, d')) (hp : p.EndsClean) (hd : d.Sane) : d'.Sane := by
  obtain ⟨place, mode', hput⟩ := putsFile_of_write h
  exact hput.sane hp hd

theorem sane_mkdir (hp : p.Clean) : Preserves (fun d d' => d.Sane → d'.Sane) (mkdir p) := by
  intro d hd
  rcases mkdir_cases p d with h | ⟨place, hs, h⟩
  · rwa [h]
  · rw [h]
    refine hd.setAt (noDirAt_of_absent hs.leads) (fun n hn => ?_) (fun l x hx _ => hs.isEntry hp.endsClean l x hx)
      fun hheld => absurd hheld (hd.wellFormed.not_held (get_absent hs.leads))
    obtain rfl := Option.some.inj hn
    exact Node.isTree_empty

theorem sane_makeDirs (hp : p.Clean) : Preserves (fun d d' => d.Sane → d'.Sane) (makeDirs p) :=
  preserves_makeDirs (fun _ h => h) (fun h h' => h' ∘ h) fun _ _ hq => sane_mkdir (hp.of_names_prefix hq)

theorem sane_of_removeTree (h : (removeTree p).run d = (.ok u, d')) (hd : d.Sane) : d'.Sane := by
  obtain ⟨place, es, hf, -, -, rfl⟩ := removeTree_eq_ok h
  have hdir := get_of_walk hf.leads
  refine ⟨⟨hd.wellFormed.cwd, fun l hl => ?_⟩, Node.isTree_set hd.tree nofun fun _ _ _ h => nomatch h⟩
  obtain ⟨hheld, hbelow⟩ := of_released hl
  obtain ⟨mode, c, hfile⟩ := hd.wellFormed.held l hheld
  refine ⟨mode, c, ?_⟩
  have habove : ¬ l <+: place := fun hp => hbelow <|
    (Node.noDirAt_of_file hfile).eq_of_above (by rw [hdir]; rfl) hp ▸ List.prefix_refl l
  exact (Node.get_set_apart _ _ hbelow habove).trans hfile

theorem sane_of_rename (h : (rename p q).run d = (.ok u, d')) (hq : q.EndsClean) (hn : q.hasNul = false) (hd : d.Sane)
    (hne : ∀ spot spot', d.locate p = .ok spot → d.locate q = .ok spot' → spot'.place ≠ spot.place) : d'.Sane := by
  obtain ⟨source, mode, c, spot, hs, ht, hno, hcwd, hroot, hheld⟩ := rename_eq_ok h
  have hfile := get_of_walk (walk_of_locate hs)
  have halters := alters_move hd.tree.keyed hfile hno (hne _ _ hs ht) hcwd hroot
  have hspot : d.FileSpot q spot.place := by
    have hfinds := finds_of_locate hn ht
    cases spot with
    | absent place => exact .inl hfinds
    | found place n =>
      cases n with
      | dir es => exact absurd (get_of_walk hfinds.leads) (hno es)
      | file mode' c' => exact .inr ⟨mode', c', hfinds⟩
  have hremoved : (d.setAt source none).root.IsTree := Node.isTree_set hd.tree nofun fun _ _ _ h => nomatch h
  have hthere : d'.root.get? spot.place = some (.file mode c) := by
    rw [hroot]
    exact get_set_spot (Node.keepsDirs_set none (Node.noDirAt_of_file hfile)) (walk_of_locate ht) _
  refine ⟨⟨hcwd.symm ▸ hd.wellFormed.cwd, fun l hl => ?_⟩, ?_⟩
  · by_cases hlt : l = spot.place
    · exact ⟨mode, c, hlt ▸ hthere⟩
    · obtain ⟨hl, hls, -⟩ := (hheld l hl).resolve_right fun h => hlt h.2
      obtain ⟨mode', c', hl⟩ := hd.wellFormed.held l hl
      exact ⟨mode', c', halters.file l mode' c' (fun h => h.elim hls hlt) hl⟩
  · rw [hroot]
    refine Node.isTree_set hremoved (fun n hn => ?_) fun l x hx _ => hspot.isEntry hq hd.tree l x hx
    obtain rfl := Option.some.inj hn
    exact Node.isTree_file mode c

theorem sane_of_createTemp {temp : Path} (h : (createTemp p).run d = (.ok temp, d')) (hd : d.Sane) :
    d'.Sane ∧ temp.EndsClean := by
  obtain ⟨name, -, hs, rfl, hf, hd'⟩ := reserve_of_createTemp h
  have hends := Path.endsClean_child hs (d.absolute p)
  have hput : PutsFile ((d.absolute p).child name) _ 0o600 (.bytes .empty) d d' := ⟨.inl hf, hd'⟩
  exact ⟨hput.sane hends hd, hends⟩

end Disk

end Provision
