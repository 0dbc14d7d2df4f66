import Provision.Proofs.Disk.Leaves

/-!
# Footprints of operations

An operation has a footprint when everything outside of the places that it may touch stands
(`Disk.Footprint`). What stands (`Node.Stands`) is as it was, but for the entries of directories, which are
places of their own, for lines at the end of the held file, and for directories that were missing where some
are needed. Nothing is assumed of the tree, and a refused operation has every footprint.
-/

namespace Provision

namespace Node

/-- The content of a file. -/
def content? : Node → Option Content
  | file _ c => some c
  | dir _ => none

/-- What may become of a place that is not touched. A directory comes where nothing was only if one is
`needed` there, and a file has more at its end only if it is `held`. -/
inductive Stands (needed held : Prop) : Option Node → Option Node → Prop
  | nothing : Stands needed held none none
  | made {es : List (String × Node)} (h : needed) : Stands needed held none (some (.dir es))
  | dir {es es' : List (String × Node)} : Stands needed held (some (.dir es)) (some (.dir es'))
  | file {mode : Nat} {c : Content} : Stands needed held (some (.file mode c)) (some (.file mode c))
  | grown {mode : Nat} {c : Content} {more : ByteArray} (h : held) :
    Stands needed held (some (.file mode c)) (some (.file mode (.bytes (c.toBytes ++ more))))

namespace Stands

variable {needed held held' : Prop} {n n' n'' : Option Node}

theorem refl (n : Option Node) : Stands needed held n n := by
  match n with
  | none => exact .nothing
  | some (.file _ _) => exact .file
  | some (.dir _) => exact .dir

theorem trans (h : Stands needed held n n') (h' : Stands needed held' n' n'') (hheld : held' → held) :
    Stands needed held n n'' := by
  cases h with
  | nothing =>
    cases h' with
    | nothing => exact .nothing
    | made hn => exact .made hn
  | made hn =>
    cases h' with
    | dir => exact .made hn
  | dir =>
    cases h' with
    | dir => exact .dir
  | file =>
    cases h' with
    | file => exact .file
    | grown hh => exact .grown (hheld hh)
  | @grown mode c more hh =>
    cases h' with
    | file => exact .grown hh
    | @grown _ _ more' =>
      have hbytes : c.toBytes ++ more ++ more' = c.toBytes ++ (more ++ more') := ByteArray.append_assoc
      change Stands needed held _ (some (.file mode (.bytes (c.toBytes ++ more ++ more'))))
      rw [hbytes]
      exact .grown hh

theorem of_file {mode : Nat} {c : ByteArray} (h : Stands needed held (some (.file mode (.bytes c))) n) :
    ∃ more, n = some (.file mode (.bytes (c ++ more))) := by
  cases h with
  | file => exact ⟨.empty, by rw [ByteArray.append_empty]⟩
  | @grown _ _ more => exact ⟨more, rfl⟩

theorem of_some_file {needed' : Prop} {mode : Nat} {c : Content}
    (h : Stands needed held (some (.file mode c)) n) (hheld : held → held') :
    Stands needed' held' (some (.file mode c)) n := by
  cases h with
  | file => exact .file
  | grown hh => exact .grown (hheld hh)

theorem of_dir {es : List (String × Node)} (h : Stands needed held (some (.dir es)) n) :
    ∃ es', n = some (.dir es') := by
  cases h with
  | dir => exact ⟨_, rfl⟩

theorem unneeded {mode : Nat} {c : Content} (h : Stands needed held n (some (.file mode c))) :
    Stands False held n (some (.file mode c)) := by
  cases h with
  | file => exact .file
  | grown hh => exact .grown hh

theorem content {m : Node} (h : Stands needed held n (some m)) (hneeded : ¬ needed) (hheld : ¬ held) :
    ∃ n₀, n = some n₀ ∧ n₀.content? = m.content? := by
  cases h with
  | made hn => exact absurd hn hneeded
  | dir => exact ⟨_, rfl, rfl⟩
  | file => exact ⟨_, rfl, rfl⟩
  | grown hh => exact absurd hh hheld

end Stands

variable {needed held : Prop} {n : Node} {m : Option Node} {place l : List String}

theorem stands_set (h : ¬ place <+: l) : Stands needed held (n.get? l) ((n.set m place).get? l) := by
  rcases place_cases place l with rfl | ⟨t, -, rfl⟩ | ⟨t, ht, rfl⟩ | ⟨hbelow, habove⟩
  · exact absurd (List.prefix_refl place) h
  · exact absurd (List.prefix_append place t) h
  · rw [get_set_above n m l ht]
    match n.get? l with
    | none => exact .nothing
    | some (.file mode c) =>
      rw [Option.map_some, set_file mode c ht]
      exact .file
    | some (.dir es) =>
      obtain ⟨es', hes'⟩ := set_dir (m := m) es ht
      rw [Option.map_some, hes']
      exact .dir
  · rw [get_set_apart n m hbelow habove]
    exact .refl _

theorem stands_set_leaf {c : Node} (hno : n.NoDirAt place) (hm : IsLeaf (some c))
    (hget : (n.set (some c) place).get? place = some c) (hl : l ≠ place) :
    Stands needed held (n.get? l) ((n.set (some c) place).get? l) := by
  by_cases habove : place <+: l
  · obtain ⟨t, rfl⟩ := habove
    have ht : t ≠ [] := by
      rintro rfl
      exact hl (by simp)
    rw [get_append_none hno ht, get_append, hget, hm.get ht]
    exact .nothing
  · exact stands_set habove

end Node

namespace Disk

variable {touched needed : List String → Prop} {d d' d'' : Disk} {p : Path} {place : List String} {troubles : Troubles}

/-- Only touched places may have changed, and only where directories are needed some may have come. No file is
held that was not. -/
structure Footprint (touched needed : List String → Prop) (d d' : Disk) : Prop where
  cwd : d'.cwd = d.cwd
  held : ∀ l, d'.held = some l → d.held = some l
  stands : ∀ l, ¬ touched l → Node.Stands (needed l) (d.held = some l) (d.root.get? l) (d'.root.get? l)

namespace Footprint

theorem refl (d : Disk) : Footprint touched needed d d :=
  ⟨rfl, fun _ h => h, fun _ _ => .refl _⟩

theorem trans (h : Footprint touched needed d d') (h' : Footprint touched needed d' d'') :
    Footprint touched needed d d'' :=
  ⟨h'.cwd.trans h.cwd, fun l hl => h.held l (h'.held l hl),
    fun l hl => (h.stands l hl).trans (h'.stands l hl) (h.held l)⟩

theorem mono {touched' : List String → Prop} (h : Footprint touched needed d d') (ht : ∀ l, touched l → touched' l) :
    Footprint touched' needed d d' :=
  ⟨h.cwd, h.held, fun l hl => h.stands l (mt (ht l) hl)⟩

/-- A change of the tree alone, told by what it does to each place that is not touched. -/
theorem setAt {m : Option Node}
    (h : ∀ l, ¬ touched l → Node.Stands (needed l) (d.held = some l) (d.root.get? l) ((d.root.set m place).get? l)) :
    Footprint touched needed d (d.setAt place m) :=
  ⟨rfl, fun _ hl => hl, h⟩

theorem of_fileSpot {mode : Nat} {c : Content} (h : d.FileSpot p place) (hp : touched place) :
    Footprint touched needed d (d.setAt place (some (.file mode c))) := by
  refine .setAt fun l hl => Node.stands_set_leaf h.noDirAt (Node.isLeaf_file mode c) (h.get_setAt _) ?_
  rintro rfl
  exact hl hp

theorem of_newDir (h : d.Finds p (.absent place)) (hp : touched place ∨ needed place) :
    Footprint touched needed d (d.setAt place (some (.dir []))) := by
  have hget := FileSpot.get_setAt (.inl h) (.dir [])
  refine .setAt fun l hl => ?_
  by_cases he : l = place
  · subst he
    rw [get_absent h.leads, ← setAt_root, hget]
    exact .made (hp.resolve_left hl)
  · exact Node.stands_set_leaf (noDirAt_of_absent h.leads) Node.isLeaf_empty hget he

theorem of_cleared {m : Option Node} {held : Option (List String)} (hp : ∀ t, touched (place ++ t))
    (hheld : ∀ l, held = some l → d.held = some l) :
    Footprint touched needed d { d.setAt place m with held } := by
  refine ⟨rfl, hheld, fun l hl => Node.stands_set ?_⟩
  rintro ⟨t, rfl⟩
  exact hl (hp t)

theorem of_append (bytes : ByteArray) : Footprint touched needed d (d.append bytes) := by
  unfold append
  split
  · exact .refl d
  · rename_i place hheld
    split
    · rename_i mode c hfile
      have hget := Node.get_set_of_isSome (by rw [hfile]; rfl) (.file mode (.bytes (c.toBytes ++ bytes)))
      refine .setAt fun l _ => ?_
      by_cases he : l = place
      · subst he
        rw [hfile, hget]
        exact .grown hheld
      · exact Node.stands_set_leaf (Node.noDirAt_of_file hfile) (Node.isLeaf_file _ _) hget he
    · exact .refl d

end Footprint

/-! ### Operations -/

theorem footprint_mkdir (h : ∀ place, d.Finds p (.absent place) → touched place ∨ needed place) :
    Footprint touched needed d ((mkdir p troubles).run d).2 := by
  rcases mkdir_cases p d with hd | ⟨place, hs, hd⟩
  · rw [hd]
    exact .refl d
  · rw [hd]
    exact .of_newDir hs (h place hs)

theorem footprint_of_puts
    (h : d' = d ∨ ∃ q place mode c, touched place ∧ PutsFile q place mode c d d') : Footprint touched needed d d' := by
  rcases h with rfl | ⟨q, place, mode, c, hp, hputs⟩
  · exact .refl _
  · rw [hputs.eq]
    exact .of_fileSpot hputs.spot hp

theorem footprint_write (c : Content) (mode : Nat) (h : ∀ place, d.FileSpot p place → touched place) :
    Footprint touched needed d ((write p c mode troubles).run d).2 := by
  refine footprint_of_puts ((write_cases p c mode d).imp_right ?_)
  rintro ⟨place, mode', c', -, hput⟩
  exact ⟨p, place, mode', c', h place hput.spot, hput⟩

theorem footprint_chmod (mode : Nat) (h : ∀ place, d.FileSpot p place → touched place) :
    Footprint touched needed d ((chmod p mode troubles).run d).2 := by
  refine footprint_of_puts ((chmod_cases p mode d).imp_right ?_)
  rintro ⟨place, mode₀, c, hf, hd'⟩
  have hspot : d.FileSpot p place := .inr ⟨mode₀, c, hf⟩
  exact ⟨p, place, mode, c, h place hspot, hspot, hd'⟩

/-- Whether it is removed, or emptied because it is named by dots, a directory is touched with all below it. -/
theorem footprint_removeTree (h : ∀ place es, d.Finds p (.found place (.dir es)) → ∀ t, touched (place ++ t)) :
    Footprint touched needed d ((removeTree p troubles).run d).2 := by
  rcases removeTree_cases p d with hd | ⟨place, es, m, held, hs, hd, hheld⟩
  · rw [hd]
    exact .refl d
  · rw [hd]
    exact .of_cleared (h place es hs) hheld

end Disk

end Provision
