import Provision.Proofs.Disk.Showing

/-!
# Replacing a directory

A directory is removed (`Cleared`) and made anew with one entry (`makeDirs_child_eq_ok`). Paths that do not lead
into it (`StaysOut`) then lead again where they did (`LeadsTo.of_cleared`).
-/

namespace Provision

namespace Disk

variable {d d' d'' : Disk} {p q : Path} {l place : List String} {es : List (String × Node)} {name : String}
  {u : Unit}

/-- The path neither leads through the place nor through anything below it. -/
def Avoids (d : Disk) (p : Path) (l : List String) : Prop :=
  ∀ ns, ns <+: p.names → ¬ l <+: follow (d.start p) ns

/-- The path may lead through the place, but through nothing below it. -/
def StaysOut (d : Disk) (p : Path) (l : List String) : Prop :=
  ∀ ns, ns <+: p.names → l <+: follow (d.start p) ns → follow (d.start p) ns = l

theorem Avoids.of_cwd (h : d.Avoids p l) (hc : d'.cwd = d.cwd) : d'.Avoids p l := by
  rw [Avoids, start_of_cwd hc]
  exact h

theorem Avoids.placeOf (h : d.Avoids p l) : ¬ l <+: d.placeOf p := h p.names (List.prefix_refl _)

theorem StaysOut.of_cwd (h : d.StaysOut p l) (hc : d'.cwd = d.cwd) : d'.StaysOut p l := by
  rw [StaysOut, start_of_cwd hc]
  exact h

theorem follow_above_end {ns : List String} (hp : ".." ∉ p.names) (hns : ns <+: p.names) :
    follow (d.start p) ns <+: d.placeOf p := by
  obtain ⟨t, ht⟩ := hns
  have hns : ".." ∉ ns := fun hd => hp (ht ▸ List.mem_append_left t hd)
  rw [placeOf_of_no_dots d hp, follow_of_no_dots hns, ← ht, ← List.append_assoc]
  exact List.prefix_append _ t

/-- Without names that lead up a path leads through nothing that is not above its end. -/
theorem avoids_of_no_dots (hp : ".." ∉ p.names) (h : ¬ l <+: d.placeOf p) : d.Avoids p l :=
  fun _ hns hl => h (hl.trans (follow_above_end hp hns))

theorem staysOut_of_no_dots (hp : ".." ∉ p.names) (h : l <+: d.placeOf p → d.placeOf p = l) :
    d.StaysOut p l := by
  intro ns hns hl
  have hend := follow_above_end (d := d) hp hns
  have hplace := h (hl.trans hend)
  rw [hplace] at hend
  exact hend.eq_of_length_le hl.length_le

theorem StaysOut.below {more : List String} (h : d.StaysOut q l) (ha : Apart l (d.placeOf q))
    (hb : Below q more p) : d.StaysOut p l := by
  intro ns hns hl
  rw [hb.start] at hl ⊢
  rw [hb.names] at hns
  rcases List.prefix_or_prefix_of_prefix hns (List.prefix_append q.names more) with h' | ⟨t, rfl⟩
  · exact h ns h' hl
  · have ht : ".." ∉ t := fun hd => hb.down (((List.prefix_append_right_inj _).1 hns).subset hd)
    rw [follow_append, follow_of_no_dots ht] at hl
    exact absurd hl (ha.symm.append t).below

/-- The last name of a path that stays out of where it ends does not lead up: it would come from below. -/
theorem StaysOut.placeOf_concat {ns : List String} {x : String} (h : d.StaysOut p (d.placeOf p))
    (hne : d.placeOf p ≠ []) (hp : p.names = ns ++ [x]) : d.placeOf p = follow (d.start p) ns ++ [x] := by
  have hend : d.placeOf p = follow (follow (d.start p) ns) [x] := by rw [placeOf, hp, follow_append]
  refine hend.trans (follow_of_no_dots (fun hx => ?_) _)
  obtain rfl := List.mem_singleton.1 hx
  have hup : d.placeOf p = (follow (d.start p) ns).dropLast := hend
  rw [h ns (hp ▸ List.prefix_append ns _) (hup ▸ List.dropLast_prefix _)] at hup
  have hlength := congrArg List.length hup
  have hpos := List.length_pos_of_ne_nil hne
  rw [List.length_dropLast] at hlength
  omega

theorem removeTree_eq_ok (h : (removeTree p).run d = (.ok u, d')) :
    ∃ l es, d.Finds p (.found l (.dir es)) ∧ p.name ≠ "" ∧ p.name ≠ ".." ∧
      d' = { d.setAt l none with held := d.held.filter (!l.isPrefixOf ·) } := by
  obtain ⟨spot, hf, h⟩ := find_bind_eq_ok h
  split at h
  · obtain ⟨_, _, h1, h⟩ := run_bind_eq_ok.1 h
    cases h1
    obtain ⟨_, _, h1, h⟩ := run_bind_eq_ok.1 h
    cases h1
    split at h
    · cases h
    · rename_i hname
      split at h
      · cases h
      · rename_i hdots
        cases h
        exact ⟨_, _, hf, hname, hdots, rfl⟩
  · cases h
  · cases h

/-- The directory at the path is gone, or there was none; whatever is not in it is as it was. -/
structure Cleared (p : Path) (d d' : Disk) : Prop where
  cwd : d'.cwd = d.cwd
  gone : d'.root.get? (d.placeOf p) = none
  held : ∀ l, d'.held = some l → d.held = some l ∧ ¬ d.placeOf p <+: l
  dirs : ∀ l es, ¬ d.placeOf p <+: l → d.root.get? l = some (.dir es) →
    ∃ es', d'.root.get? l = some (.dir es')
  node : ∀ l, Apart (d.placeOf p) l → d'.root.get? l = d.root.get? l

theorem Cleared.of_none (hd : d.WellFormed) (h : d.root.get? (d.placeOf p) = none) : Cleared p d d := by
  exact ⟨rfl, h, fun l hl => ⟨hl, hd.not_below h hl⟩, fun _ es _ hes => ⟨es, hes⟩, fun _ _ => rfl⟩

theorem Cleared.place_ne_nil (h : Cleared p d d') : d.placeOf p ≠ [] := by
  intro hnil
  have hgone := h.gone
  rw [hnil] at hgone
  cases hgone

theorem cleared_of_removeTree (htree : d.root.IsTree) (h : (removeTree p).run d = (.ok u, d')) :
    Cleared p d d' := by
  obtain ⟨l, es, hf, hname, hdots, rfl⟩ := removeTree_eq_ok h
  obtain rfl : l = d.placeOf p := place_eq_follow hf.leads
  refine ⟨rfl, ?_, fun l hl => ?_, fun l es hbelow hes => ?_, fun l hl => ?_⟩
  · obtain ⟨ns, hx⟩ := Path.names_eq_concat hname
    have hw := hf.leads
    rw [hx] at hw
    obtain ⟨l', es', hl', -, hspot⟩ := walk_concat hdots hw
    have hplace : d.placeOf p = l' ++ [p.name] := by
      rw [placeOf, hx, follow_append, ← place_eq_follow hl', follow_of_no_dots (by simpa using hdots.symm)]
      rfl
    rw [hplace]
    exact Node.get_set_none (get_of_walk hl') (htree l' es' (get_of_walk hl')).1 p.name
  · exact of_released hl
  · rcases Node.place_cases (d.placeOf p) l with h | ⟨t, -, rfl⟩ | ⟨t, ht, h⟩ | ⟨-, habove⟩
    · exact absurd (h ▸ List.prefix_refl _) hbelow
    · exact absurd (List.prefix_append _ t) hbelow
    · obtain ⟨es', hes'⟩ := Node.set_dir (m := none) es ht
      refine ⟨es', ?_⟩
      change (d.root.set none (d.placeOf p)).get? l = _
      rw [h, Node.get_set_above _ _ _ ht, hes, Option.map_some, hes']
    · exact ⟨es, (Node.get_set_apart _ _ hbelow habove).trans hes⟩
  · exact Node.get_set_apart _ _ hl.above hl.below

/-- A directory that is to be removed is gone or, where it is named by dots, empty, and no file in it is held. -/
theorem removeTree_leaves (htree : d.root.IsTree) (hf : d.Finds p (.found l (.dir es))) :
    (∀ t n, ((removeTree p).run d).2.root.get? (l ++ t) = some n → t = [] ∧ n = .dir []) ∧
      ∀ l', ((removeTree p).run d).2.held = some l' → ¬ l <+: l' := by
  rcases hr : (removeTree p).run d with ⟨e | u, d'⟩
  · rw [removeTree, run_find_bind hf] at hr
    have hd' : d' = { d.setAt l (some (.dir [])) with held := d.held.filter (!l.isPrefixOf ·) } := by
      dsimp only at hr
      split at hr
      · exact (congrArg Prod.snd hr).symm
      · split at hr
        · exact (congrArg Prod.snd hr).symm
        · cases hr
    subst hd'
    have hset := Node.get_set_of_isSome (by rw [get_of_walk hf.leads]; rfl) (.dir [])
    refine ⟨fun t n hn => ?_, fun l' hl' hp => ?_⟩
    · change (d.root.set _ l).get? (l ++ t) = _ at hn
      rw [Node.get_append, hset] at hn
      cases t with
      | nil => exact ⟨rfl, (Option.some.inj hn).symm⟩
      | cons x xs => cases hn
    · exact (of_released hl').2 hp
  · obtain rfl : l = d.placeOf p := place_eq_follow hf.leads
    have hc := cleared_of_removeTree htree hr
    refine ⟨fun t n hn => ?_, fun l' hl' => (hc.held l' hl').2⟩
    rw [Node.get_append, hc.gone] at hn
    cases hn

theorem LeadsTo.of_cleared (h : d.LeadsTo q place) (hc : Cleared p d d') (hq : d.StaysOut q (d.placeOf p))
    (hcwd : d''.cwd = d'.cwd) (hdirs : Node.KeepsDirs d'.root d''.root)
    (hnew : d''.root.get? (d.placeOf p) = some (.dir es)) : d''.LeadsTo q place := by
  have hway : KeepsWay d.root d''.root (d.start q) q.names := by
    intro ns es' hns hes'
    by_cases hin : d.placeOf p <+: follow (d.start q) ns
    · rw [hq ns hns hin]
      exact ⟨es, hnew⟩
    · obtain ⟨es₁, hes₁⟩ := hc.dirs _ es' hin hes'
      exact hdirs _ es₁ hes₁
  obtain ⟨es', hl⟩ := h
  have hplace : place = follow (d.start q) q.names := place_eq_follow hl
  obtain ⟨es₂, hes₂⟩ := hway q.names es' (List.prefix_refl _) (hplace ▸ get_of_walk hl)
  rw [← hplace] at hes₂
  refine ⟨es₂, ?_⟩
  rw [start_of_cwd (hcwd.trans hc.cwd)]
  exact walk_keepsWay hway hl hes₂

/-! ### Making it anew -/

/-- Nothing, or a directory that holds at most one empty directory of the name. -/
def IsFresh (name : String) (n : Option Node) : Prop :=
  n = none ∨ n = some (.dir []) ∨ n = some (.dir [(name, .dir [])])

/-- Directories have been made on the way to an entry of the directory at the place, and in it no other. -/
structure Prepares (name : String) (place l : List String) (d d' : Disk) : Prop where
  spares : Spares l d d'
  held : d'.held = d.held
  fresh : IsFresh name (d.root.get? place) → IsFresh name (d'.root.get? place)

theorem Prepares.refl (d : Disk) : Prepares name place l d d := ⟨.refl l d, rfl, id⟩

theorem Prepares.trans (h : Prepares name place l d d') (h' : Prepares name place l d' d'') :
    Prepares name place l d d'' :=
  ⟨h.spares.trans h'.spares, h'.held.trans h.held, h'.fresh ∘ h.fresh⟩

theorem prepares_entry (h : d.Finds q (.absent (place ++ [name]))) (hl : ¬ l <+: place ++ [name]) :
    Prepares name place l d (d.setAt (place ++ [name]) (some (.dir []))) := by
  obtain ⟨l', x, es, hlx, hdir, hx⟩ := get_of_walk_absent h.leads
  obtain ⟨rfl, hxs⟩ := List.append_inj' hlx rfl
  obtain rfl := List.singleton_inj.1 hxs
  refine ⟨spares_newDir h hl, rfl, fun hfresh => ?_⟩
  have hes : es = [] := by
    rcases hfresh with h | h | h
    · cases h.symm.trans hdir
    · cases h.symm.trans hdir
      rfl
    · cases h.symm.trans hdir
      cases List.lookup_cons_self.symm.trans hx
  subst hes
  refine .inr (.inr ?_)
  rw [setAt_root, Node.get_set_above _ _ _ (List.cons_ne_nil _ _), hdir]
  rfl

theorem prepares_outside {made : List String} (h : d.Finds q (.absent made)) (hl : ¬ l <+: made)
    (hout : place <+: made → made = place) : Prepares name place l d (d.setAt made (some (.dir []))) := by
  refine ⟨spares_newDir h hl, rfl, fun hfresh => ?_⟩
  by_cases hin : place <+: made
  · obtain rfl := hout hin
    exact .inr (.inl (FileSpot.get_setAt (.inl h) (.dir [])))
  · rwa [(spares_newDir h hin).node]

theorem prepares_mkdir (hdots : name ≠ "..") (hout : d.StaysOut p (d.placeOf p))
    (hl : d.Avoids p l) (hpl : ¬ d.placeOf p <+: l) (hanchor : q.anchor = p.anchor)
    (hq : q.names <+: p.names ++ [name]) : Prepares name (d.placeOf p) l d ((mkdir q).run d).2 := by
  have hstart : d.start q = d.start p := by
    rw [start, start, Path.isAbsolute, Path.isAbsolute, hanchor]
  rcases mkdir_cases q d with hd | ⟨made, hs, hd⟩
  · rw [hd]
    exact .refl d
  · have hmade : made = follow (d.start p) q.names := hstart ▸ place_eq_follow hs.leads
    rw [hd]
    rcases List.prefix_concat_iff.1 hq with hentry | hq
    · have hmade : made = d.placeOf p ++ [name] := by
        rw [hmade, hentry, follow_append, follow_of_no_dots (by simpa using hdots.symm), placeOf]
      subst hmade
      refine prepares_entry hs fun hp => ?_
      rcases List.prefix_concat_iff.1 hp with rfl | hp
      · exact hpl (List.prefix_append _ _)
      · exact hl.placeOf hp
    · exact prepares_outside hs (hmade ▸ hl q.names hq) fun hin => hmade.trans (hout q.names hq (hmade ▸ hin))

/-- A directory that was made at a path where nothing was holds the entry it was made for, and nothing else. -/
theorem makeDirs_child_eq_ok (hs : Path.IsSingle name) (hdots : name ≠ "..")
    (hshort : p.text.utf8ByteSize < pathLimit) (hnone : d.root.get? (d.placeOf p) = none)
    (hout : d.StaysOut p (d.placeOf p)) (hl : d.Avoids p l) (hpl : ¬ d.placeOf p <+: l)
    (h : (makeDirs (p.child name)).run d = (.ok u, d')) :
    d'.Finds p (.found (d.placeOf p) (.dir [(name, .dir [])])) ∧ Spares l d d' ∧ d'.held = d.held := by
  have hchild := Path.child_of_single p hs
  -- Which place the path names depends on the working directory alone, and that stays.
  have hprepares : Preserves (fun d₁ d₂ => d₁.cwd = d.cwd → Prepares name (d.placeOf p) l d₁ d₂)
      (makeDirs (p.child name)) := by
    refine preserves_makeDirs (fun d _ => .refl d) (fun h h' hc => ?_) fun q hanchor hq d₁ hc => ?_
    · exact (h hc).trans (h' ((h hc).spares.cwd.trans hc))
    · rw [hchild] at hanchor hq
      have hplace := placeOf_of_cwd hc p
      rw [← hplace] at hout hpl ⊢
      exact prepares_mkdir hdots (hout.of_cwd hc) (hl.of_cwd hc) hpl hanchor hq
  have hp := hprepares.of_run h rfl
  obtain ⟨place, es, hf⟩ := finds_of_makeDirs h
  have hw := hf.leads
  rw [Path.start_child d' p hs, Path.names_child p hs] at hw
  obtain ⟨l', es', hl', -, hspot⟩ := walk_concat hdots hw
  obtain rfl : l' = d.placeOf p := by
    rw [placeOf, ← hp.spares.start]
    exact place_eq_follow hl'
  have hget := get_of_walk hl'
  have hes : es' = [(name, .dir [])] := by
    rcases hp.fresh (.inl hnone) with hfresh | hfresh | hfresh
    · cases hfresh.symm.trans hget
    · cases hfresh.symm.trans hget
      cases hspot
    · cases hfresh.symm.trans hget
      rfl
  exact ⟨⟨Path.noNul_of_child hs hf.noNul, hshort, hes ▸ hl'⟩, hp.spares, hp.held⟩

end Disk

end Provision
