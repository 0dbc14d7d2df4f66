import Mathlib.Data.List.Nodup
import Mathlib.Data.List.Perm.Lattice
import Mathlib.Data.List.TakeWhile
import Provision.Proofs.Disk.Sanity

/-!
# What an archive has in it

An archive of a tree has a member for every node of it, under the path of the node, and no other
(`Disk.packs_membersOf`).
-/

namespace Provision

namespace Node

/-- What an archive tells of a node, but not of what is below it. -/
def member (name : String) : Node → Member
  | file mode c => ⟨name, false, mode, c.toBytes⟩
  | dir _ => ⟨name, true, dirMode, .empty⟩

/-- What holds of every file, and of a directory if it holds of its entries, holds of every node. -/
theorem forall_of_entries {C : Node → Prop} (hfile : ∀ mode c, C (file mode c))
    (hdir : ∀ es, (∀ x c, (x, c) ∈ es → C c) → C (dir es)) : ∀ n, C n
  | file mode c => hfile mode c
  | dir es => hdir es fun x c h =>
    have hlt : sizeOf c < sizeOf (dir es) := by
      have hmem := List.sizeOf_lt_of_mem h
      simp only [Prod.mk.sizeOf_spec, dir.sizeOf_spec] at hmem ⊢
      omega
    forall_of_entries hfile hdir c
termination_by n => sizeOf n
decreasing_by exact hlt

end Node

namespace Disk

variable {n : Node} {name : String} {es : List (String × Node)} {m : Member}

theorem insertByKey_perm (x : String × List Member) (xs : List (String × List Member)) :
    (insertByKey x xs).Perm (x :: xs) := by
  induction xs with
  | nil => exact .refl _
  | cons y ys ih =>
    rw [insertByKey]
    split
    · exact .refl _
    · exact (ih.cons y).trans (.swap x y ys)

theorem entryMembers_perm (name : String) (es : List (String × Node)) :
    (entryMembers name es).Perm (es.map fun (k, n) => (k, membersOf (name ++ "/" ++ k) n)) := by
  induction es with
  | nil =>
    rw [entryMembers]
    exact .refl _
  | cons e es ih =>
    obtain ⟨k, n⟩ := e
    rw [entryMembers]
    exact (insertByKey_perm _ _).trans (ih.cons _)

/-- Up to their order, the members of a directory are its own and those of its entries. -/
theorem membersOf_dir_perm (name : String) (es : List (String × Node)) :
    (membersOf name (.dir es)).Perm
      ((Node.dir es).member name :: es.flatMap fun (k, n) => membersOf (name ++ "/" ++ k) n) := by
  rw [membersOf]
  refine List.Perm.cons _ ?_
  have h := (entryMembers_perm name es).flatMap_right (·.2)
  rwa [List.flatMap_map] at h

theorem intercalate_below (name k : String) (t : List String) :
    "/".intercalate ((name ++ "/" ++ k) :: t) = "/".intercalate (name :: k :: t) := by
  cases t with
  | nil => simp [String.intercalate_cons_of_ne_nil]
  | cons x xs => simp [String.intercalate_cons_of_ne_nil, String.append_assoc]

/-- There is one member for each node of the tree, under the path of the node. -/
structure Packs (name : String) (n : Node) (ms : List Member) : Prop where
  distinct : (ms.map (·.name)).Nodup
  mem_iff : ∀ m, m ∈ ms ↔ ∃ t c, n.get? t = some c ∧ m = c.member ("/".intercalate (name :: t))

theorem mem_membersOf (hn : n.Keyed) (name : String) (m : Member) :
    m ∈ membersOf name n ↔ ∃ t c, n.get? t = some c ∧ m = c.member ("/".intercalate (name :: t)) := by
  revert hn name
  refine Node.forall_of_entries (C := fun n => n.Keyed → ∀ name, m ∈ membersOf name n ↔
    ∃ t c, n.get? t = some c ∧ m = c.member ("/".intercalate (name :: t))) (fun mode c _ name => ?_)
    (fun es ih hes name => ?_) n
  · rw [membersOf, List.mem_singleton]
    constructor
    · intro h
      exact ⟨[], _, rfl, by rw [h, String.intercalate_singleton]; rfl⟩
    · rintro ⟨t, c', ht, rfl⟩
      by_cases hnil : t = []
      · rw [hnil] at ht ⊢
        cases ht
        rw [String.intercalate_singleton]
        rfl
      · rw [Node.get_file_of_ne mode c hnil] at ht
        cases ht
  · rw [(membersOf_dir_perm name es).mem_iff, List.mem_cons, List.mem_flatMap]
    have hkeyed := hes [] es rfl
    have hentries : ∀ x c, (x, c) ∈ es → c.Keyed := by
      intro x c hc l es' hl
      refine hes (x :: l) es' ?_
      rw [Node.get_cons, Node.child?, Node.entries, lookup_of_mem hkeyed hc]
      exact hl
    constructor
    · rintro (rfl | ⟨⟨x, c⟩, hc, hm⟩)
      · exact ⟨[], .dir es, rfl, by rw [String.intercalate_singleton]⟩
      · obtain ⟨t, c', ht, rfl⟩ := (ih x c hc (hentries x c hc) _).1 hm
        refine ⟨x :: t, c', ?_, by rw [intercalate_below]⟩
        rw [Node.get_cons, Node.child?, Node.entries, lookup_of_mem hkeyed hc]
        exact ht
    · rintro ⟨t, c, ht, rfl⟩
      cases t with
      | nil =>
        cases ht
        rw [String.intercalate_singleton]
        exact .inl rfl
      | cons x t =>
        rw [Node.get_cons] at ht
        obtain ⟨c', hc', ht⟩ := Option.bind_eq_some_iff.1 ht
        have hmem : (x, c') ∈ es := mem_of_lookup hc'
        refine .inr ⟨(x, c'), hmem, (ih x c' hmem (hentries x c' hmem) _).2 ⟨t, c, ht, ?_⟩⟩
        rw [intercalate_below]

theorem eq_of_intercalate_eq {k k' : String} {t t' : List String} (hk : Path.IsSingle k) (hk' : Path.IsSingle k')
    (h : "/".intercalate (name :: k :: t) = "/".intercalate (name :: k' :: t')) : k = k' := by
  have hread : ∀ {k : String} (t : List String), Path.IsSingle k →
      ("/".intercalate (k :: t)).toList.takeWhile (· ≠ '/') = k.toList := by
    intro k t hk
    have hall : ∀ c ∈ k.toList, decide (c ≠ '/') = true := fun c hc => decide_eq_true (hk.noSlash c hc)
    cases t with
    | nil => rw [String.intercalate_singleton, List.takeWhile_eq_self_iff.2 hall]
    | cons x xs =>
      rw [String.intercalate_cons_of_ne_nil (List.cons_ne_nil x xs), String.toList_append, String.toList_append,
        List.append_assoc, List.takeWhile_append_of_pos hall]
      exact List.append_nil _
  rw [String.intercalate_cons_of_ne_nil (List.cons_ne_nil k t),
    String.intercalate_cons_of_ne_nil (List.cons_ne_nil k' t')] at h
  have hrest := String.append_right_inj _ |>.1 h
  exact String.toList_inj.1 ((hread t hk).symm.trans (hrest ▸ hread t' hk'))

theorem nodup_membersOf (hn : n.IsTree) (name : String) : ((membersOf name n).map (·.name)).Nodup := by
  revert hn name
  refine Node.forall_of_entries (C := fun n => n.IsTree → ∀ name, ((membersOf name n).map (·.name)).Nodup)
    (fun mode c _ name => ?_) (fun es ih hes name => ?_) n
  · rw [membersOf]
    exact List.nodup_singleton name
  · obtain ⟨⟨hkeyed, hnames⟩, hbelow⟩ := (Node.named_dir (P := Path.IsEntry)).1 hes
    have htree : ∀ e ∈ es, e.2.IsTree := fun e he => hbelow e.1 e.2 (lookup_of_mem hkeyed he)
    -- A member from below an entry has the name of the entry in its path.
    have hpath : ∀ e ∈ es, ∀ y ∈ (membersOf (name ++ "/" ++ e.1) e.2).map (·.name),
        ∃ t, y = "/".intercalate (name :: e.1 :: t) := by
      intro e he y hy
      obtain ⟨m, hm, rfl⟩ := List.mem_map.1 hy
      obtain ⟨t, c, -, rfl⟩ := (mem_membersOf (htree e he).keyed _ m).1 hm
      refine ⟨t, ?_⟩
      rw [← intercalate_below]
      cases c <;> rfl
    rw [((membersOf_dir_perm name es).map _).nodup_iff, List.map_cons, List.nodup_cons, List.map_flatMap]
    refine ⟨fun h => ?_, List.nodup_flatMap.2 ⟨fun e he => ih e.1 e.2 he (htree e he) _, ?_⟩⟩
    · obtain ⟨e, he, hy⟩ := List.mem_flatMap.1 h
      obtain ⟨t, ht⟩ := hpath e he _ hy
      have hsize := congrArg String.utf8ByteSize ht
      rw [String.intercalate_cons_of_ne_nil (List.cons_ne_nil e.1 t)] at hsize
      simp only [Node.member, String.utf8ByteSize_append] at hsize
      have hslash : "/".utf8ByteSize = 1 := by decide
      omega
    · refine (List.pairwise_map.1 hkeyed).imp_of_mem fun {e e'} he he' hne y hy hy' => hne ?_
      obtain ⟨t, ht⟩ := hpath e he y hy
      obtain ⟨t', ht'⟩ := hpath e' he' y hy'
      exact eq_of_intercalate_eq (hnames e.1 (List.mem_map_of_mem he)).single
        (hnames e'.1 (List.mem_map_of_mem he')).single (ht.symm.trans ht')

theorem packs_membersOf (hn : n.IsTree) (name : String) : Packs name n (membersOf name n) :=
  ⟨nodup_membersOf hn name, mem_membersOf hn.keyed name⟩

end Disk

end Provision
