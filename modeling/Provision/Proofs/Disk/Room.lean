import Provision.Proofs.Disk.Entries

/-!
# Paths with room

A path with room for some bytes more (`Path.Room`) is one that the system takes, and so are the paths
that go on from it by names of entries. What such a path leads to is told by the entries of the
directory (`Finds.entry`), or by its being missing (`Missing.child`), and its absolute path leads to
the same place (`Finds.absolute`).
-/

namespace Provision

/-- A text that can name an entry of a directory. -/
structure Path.IsEntry (name : String) : Prop where
  single : IsSingle name
  plain : Disk.IsPlain name
  noNul : name.toList.contains '\x00' = false

/-- The system takes the path, and those with so many bytes more. -/
structure Path.Room (p : Path) (k : Nat) : Prop where
  noNul : p.hasNul = false
  short : p.text.utf8ByteSize + k < Disk.pathLimit

/-- What holds of every disk: the working directory is given by names of entries, and the file held open
is one. -/
structure Disk.WellFormed (d : Disk) : Prop where
  cwd : ∀ x ∈ d.cwd, IsPlain x
  held : ∀ l, d.held = some l → ∃ mode c, d.root.get? l = some (.file mode c)

theorem Disk.WellFormed.not_below {d : Disk} {place l : List String} (hd : d.WellFormed)
    (h : d.root.get? place = none) (hl : d.held = some l) : ¬ place <+: l := by
  rintro ⟨t, rfl⟩
  obtain ⟨mode, c, hfile⟩ := hd.held _ hl
  rw [Node.get_append, h] at hfile
  cases hfile

theorem Disk.WellFormed.not_held {d : Disk} {place : List String} (hd : d.WellFormed)
    (h : d.root.get? place = none) : d.held ≠ some place :=
  fun hl => hd.not_below h hl (List.prefix_refl place)

theorem Disk.WellFormed.of_keeps {d d' : Disk} (hd : d.WellFormed) (hk : ∀ l, Disk.Keeps l d d') : d'.WellFormed := by
  refine ⟨(hk []).cwd ▸ hd.cwd, fun l hl => ?_⟩
  obtain ⟨mode, c, hfile⟩ := hd.held l ((hk l).held ▸ hl)
  exact ⟨mode, c, (hk l).file mode c hfile⟩

namespace Path

variable {p : Path} {name : String} {k k' : Nat}

theorem Room.mono (h : p.Room k) (hk : k' ≤ k) : p.Room k' :=
  ⟨h.noNul, by have := h.short; omega⟩

theorem parent_child (p : Path) (h : IsSingle name) : (p.child name).parent = p := by
  rw [child_of_single p h, parent, List.dropLast_concat]

theorem text_child_size (p : Path) (h : IsSingle name) :
    (p.child name).text.utf8ByteSize ≤ p.text.utf8ByteSize + name.utf8ByteSize + 1 := by
  have hslash : "/".utf8ByteSize = 1 := by decide
  have hjoin : ("/".intercalate (p.names ++ [name])).utf8ByteSize ≤
      ("/".intercalate p.names).utf8ByteSize + name.utf8ByteSize + 1 := by
    by_cases hn : p.names = []
    · rw [hn, List.nil_append, String.intercalate_singleton]
      omega
    · rw [String.intercalate_append_of_ne_nil hn (List.cons_ne_nil _ _), String.intercalate_singleton,
        String.utf8ByteSize_append, String.utf8ByteSize_append, hslash]
      omega
  rw [child_of_single p h, text, text]
  cases p.anchor with
  | relative =>
    dsimp only
    have hdot : ".".utf8ByteSize = 1 := by decide
    by_cases hp : "/".intercalate p.names = ""
    · rw [if_pos hp, hdot]
      rw [hp] at hjoin
      split
      · omega
      · simp only [String.utf8ByteSize_empty] at hjoin
        omega
    · rw [if_neg hp]
      split
      · rw [hdot]
        have := String.utf8ByteSize_eq_zero_iff.not.2 hp
        omega
      · exact hjoin
  | root =>
    simp only [String.utf8ByteSize_append]
    omega
  | twoSlashes =>
    simp only [String.utf8ByteSize_append]
    omega

theorem text_child_le {x y : String} (p : Path) (hx : IsSingle x) (hy : IsSingle y)
    (h : x.utf8ByteSize ≤ y.utf8ByteSize) : (p.child x).text.utf8ByteSize ≤ (p.child y).text.utf8ByteSize := by
  have hjoin : ("/".intercalate (p.names ++ [x])).utf8ByteSize ≤ ("/".intercalate (p.names ++ [y])).utf8ByteSize := by
    by_cases hn : p.names = []
    · rwa [hn, List.nil_append, List.nil_append, String.intercalate_singleton, String.intercalate_singleton]
    · rw [String.intercalate_append_of_ne_nil hn (List.cons_ne_nil _ _),
        String.intercalate_append_of_ne_nil hn (List.cons_ne_nil _ _), String.intercalate_singleton,
        String.intercalate_singleton]
      simp only [String.utf8ByteSize_append]
      omega
  have hne : ∀ z, IsSingle z → "/".intercalate (p.names ++ [z]) ≠ "" := by
    intro z hz he
    have hsize := congrArg String.utf8ByteSize he
    have hpos := String.utf8ByteSize_eq_zero_iff.not.2 hz.ne_empty
    by_cases hn : p.names = []
    · rw [hn, List.nil_append, String.intercalate_singleton] at he
      exact hz.ne_empty he
    · rw [String.intercalate_append_of_ne_nil hn (List.cons_ne_nil _ _), String.intercalate_singleton,
        String.utf8ByteSize_append, String.utf8ByteSize_empty] at hsize
      omega
  rw [child_of_single p hx, child_of_single p hy, text, text]
  cases p.anchor with
  | relative =>
    dsimp only
    rwa [if_neg (hne x hx), if_neg (hne y hy)]
  | root | twoSlashes =>
    simp only [String.utf8ByteSize_append]
    omega

theorem noNul_of_child (hs : IsSingle name) (h : (p.child name).hasNul = false) : p.hasNul = false := by
  rw [hasNul, names_child p hs, List.any_append, Bool.or_eq_false_iff] at h
  exact h.1

theorem noNul_child (hn : IsEntry name) (h : p.hasNul = false) : (p.child name).hasNul = false := by
  rw [hasNul, names_child p hn.single, List.any_append, Bool.or_eq_false_iff]
  exact ⟨h, by simpa using hn.noNul⟩

theorem Room.child (h : p.Room (k + (name.utf8ByteSize + 1))) (hn : IsEntry name) :
    (p.child name).Room k := by
  refine ⟨noNul_child hn h.noNul, ?_⟩
  have := text_child_size p hn.single
  have := h.short
  omega

end Path

namespace Disk

open Provision.Path (IsEntry)

variable {d : Disk} {p : Path} {l : List String} {es : List (String × Node)} {name : String}
  {root : Node} {here names rest : List String} {k k' : Nat}

theorem Finds.entry (h : d.Finds p (.found l (.dir es))) (hn : IsEntry name)
    (hr : (p.child name).Room k) : d.Finds (p.child name) (entrySpot l es name) := by
  refine ⟨hr.noNul, by have := hr.short; omega, ?_⟩
  rw [Path.start_child d p hn.single, Path.names_child p hn.single, walk_append h.leads,
    walk_last (get_of_walk h.leads) hn.plain]

theorem Finds.entry_some {n : Node} (h : d.Finds p (.found l (.dir es))) (hn : IsEntry name)
    (hr : (p.child name).Room k) (hl : es.lookup name = some n) :
    d.Finds (p.child name) (.found (l ++ [name]) n) := by
  have he := h.entry hn hr
  rwa [entrySpot, hl] at he

theorem Finds.entry_none (h : d.Finds p (.found l (.dir es))) (hn : IsEntry name)
    (hr : (p.child name).Room k) (hl : es.lookup name = none) :
    d.Finds (p.child name) (.absent (l ++ [name])) := by
  have he := h.entry hn hr
  rwa [entrySpot, hl] at he

theorem run_probe_entry {n : Node} (h : d.Finds p (.found l (.dir es))) (hn : IsEntry name)
    (hr : (p.child name).Room k) (hl : es.lookup name = some n) :
    (probe (p.entry name)).run d = (.ok (some n), d) := by
  rw [Path.entry_eq_child p hn.single]
  exact run_probe_found (h.entry_some hn hr hl)

/-! ### Missing paths -/

theorem walk_append_absent (h : walk root here names = .ok (.absent l)) (hr : rest ≠ []) :
    walk root here (names ++ rest) = .error .noEntry := by
  induction names generalizing here with
  | nil =>
    obtain ⟨n, -, heq⟩ := walk_nil_eq_ok h
    cases heq
  | cons name names ih =>
    rw [List.cons_append]
    obtain ⟨es, hes, ⟨rfl, hw⟩ | ⟨hp, ⟨n, hc, hw⟩ | ⟨hc, rfl, -⟩⟩⟩ := walk_cons_eq_ok h
    · rw [walk_dots hes, ih hw]
    · rw [walk_entry hes hp hc, ih hw]
    · obtain ⟨x, xs, rfl⟩ := List.exists_cons_of_ne_nil hr
      rw [walk, hes]
      simp only [if_neg hp.ne_dots, if_neg (Nat.not_lt.2 hp.size), List.nil_append, hc]

theorem walk_append_error {e : Errno} (h : walk root here names = .error e) (rest : List String) :
    walk root here (names ++ rest) = .error e := by
  induction names generalizing here with
  | nil =>
    rw [walk] at h
    split at h
    · cases h
    · rename_i hn
      cases h
      rw [List.nil_append]
      cases rest <;> rw [walk, hn]
  | cons name names ih =>
    rw [walk] at h
    rw [List.cons_append, walk]
    split at h
    · exact h
    · exact h
    · split at h
      · rename_i hd
        rw [if_pos hd, ih h]
      · rename_i hd
        split at h
        · rename_i hs
          rw [if_neg hd, if_pos hs, h]
        · rename_i hs
          rw [if_neg hd, if_neg hs]
          split at h
          · rename_i hc
            simp only [hc, ih h]
          · cases h
          · rename_i hc
            simp only [hc, List.cons_append, h]

/-- Nothing is at the end of the path, which may be taken from there on by new directories. -/
structure Missing (d : Disk) (p : Path) : Prop where
  noNul : p.hasNul = false
  leads : d.locate p = .error .noEntry ∨ ∃ l, d.locate p = .ok (.absent l)

theorem Finds.missing (h : d.Finds p (.absent l)) : d.Missing p :=
  ⟨h.noNul, .inr ⟨l, h.locate⟩⟩

theorem locate_of_room (h : p.Room k) : d.locate p = walk d.root (d.start p) p.names := by
  have := h.short
  rw [locate, if_neg (by omega)]

theorem locate_child_of_missing (h : d.Missing p) (hp : p.Room k) (hn : IsEntry name)
    (hr : (p.child name).Room k') : d.locate (p.child name) = .error .noEntry := by
  rw [locate_of_room hr, Path.start_child d p hn.single, Path.names_child p hn.single]
  rcases h.leads with h | ⟨l, h⟩
  · rw [locate_of_room hp] at h
    exact walk_append_error h [name]
  · rw [locate_of_room hp] at h
    exact walk_append_absent h (List.cons_ne_nil name [])

theorem Missing.child (h : d.Missing p) (hp : p.Room k) (hn : IsEntry name)
    (hr : (p.child name).Room k') : d.Missing (p.child name) :=
  ⟨hr.noNul, .inl (locate_child_of_missing h hp hn hr)⟩

theorem run_probe_missing (h : d.Missing p) : (probe p).run d = (.ok none, d) := by
  rw [run_probe_eq h.noNul]
  rcases h.leads with h | ⟨l, h⟩ <;> rw [h]

theorem run_isDir_missing (h : d.Missing p) : (isDir p).run d = (.ok false, d) := by
  rw [isDir, run_bind_ok (run_probe_missing h)]
  rfl

theorem run_isFile_missing (h : d.Missing p) : (isFile p).run d = (.ok false, d) := by
  rw [isFile, run_bind_ok (run_probe_missing h)]
  rfl

theorem isPlain_of_mem_place {spot : Spot} (h : walk root here names = .ok spot)
    (hh : ∀ x ∈ here, IsPlain x) : ∀ x ∈ spot.place, IsPlain x := by
  have hconcat : ∀ {here : List String} {name : String}, (∀ x ∈ here, IsPlain x) → IsPlain name →
      ∀ x ∈ here ++ [name], IsPlain x := by
    intro here name hh hp x hx
    rcases List.mem_append.1 hx with hx | hx
    · exact hh x hx
    · exact List.mem_singleton.1 hx ▸ hp
  induction names generalizing here with
  | nil =>
    obtain ⟨n, -, rfl⟩ := walk_nil_eq_ok h
    exact hh
  | cons name names ih =>
    obtain ⟨es, hes, ⟨rfl, hw⟩ | ⟨hp, ⟨n, hc, hw⟩ | ⟨hc, rfl, rfl⟩⟩⟩ := walk_cons_eq_ok h
    · exact ih hw fun x hx => hh x (List.dropLast_subset _ hx)
    · exact ih hw (hconcat hh hp)
    · exact hconcat hh hp

theorem walk_place {n : Node} (h : root.get? (here ++ l) = some n) (hl : ∀ x ∈ l, IsPlain x) :
    walk root here l = .ok (.found (here ++ l) n) := by
  induction l generalizing here with
  | nil =>
    rw [List.append_nil] at h ⊢
    exact walk_nil h
  | cons x xs ih =>
    obtain ⟨es, hes⟩ := Node.isDir_of_get_append (by rw [h]; rfl) (List.cons_ne_nil x xs)
    have hsplit : here ++ x :: xs = here ++ [x] ++ xs := by simp
    rw [hsplit] at h ⊢
    obtain ⟨c, hc⟩ : ∃ c, es.lookup x = some c := by
      rw [← Node.get_concat_of_dir hes]
      rw [Node.get_append] at h
      exact Option.isSome_iff_exists.1 (by cases hx : root.get? (here ++ [x]) with
        | none => rw [hx] at h; cases h
        | some c => rfl)
    rw [walk_entry hes (hl x List.mem_cons_self) hc]
    exact ih h fun y hy => hl y (List.mem_cons_of_mem x hy)

theorem no_dots_of_plain (hl : ∀ x ∈ l, IsPlain x) : ".." ∉ l :=
  fun h => (hl _ h).ne_dots rfl

theorem start_plain (hc : ∀ x ∈ d.cwd, IsPlain x) (p : Path) : ∀ x ∈ d.start p, IsPlain x := by
  rw [start]
  split
  · exact List.forall_mem_nil _
  · exact hc

theorem start_absolute (d : Disk) (p : Path) : d.start (d.absolute p) = [] := by
  rw [start, if_pos]
  rw [Path.isAbsolute, Disk.absolute]
  split <;> simp

theorem absolute_child (d : Disk) (p : Path) (hs : Path.IsSingle name) (hd : name ≠ "..") :
    d.absolute (p.child name) = (d.absolute p).child name := by
  have hanchor : (p.child name).anchor = p.anchor := by rw [Path.child_of_single p hs]
  rw [Path.child_of_single (d.absolute p) hs, absolute, absolute, hanchor,
    Path.start_child d p hs, Path.names_child p hs, ← List.append_assoc, Path.collapse,
    List.foldl_concat, if_neg hd]
  rfl

/-- The place that a path names, whatever is there. -/
def placeOf (d : Disk) (p : Path) : List String :=
  follow (d.start p) p.names

theorem names_absolute (hc : ∀ x ∈ d.cwd, IsPlain x) (p : Path) :
    (d.absolute p).names = d.placeOf p := by
  change follow [] (d.start p ++ p.names) = _
  rw [follow_append, follow_of_no_dots (no_dots_of_plain (start_plain hc p)), List.nil_append, placeOf]

theorem placeOf_of_no_dots (d : Disk) (hp : ".." ∉ p.names) : d.placeOf p = d.start p ++ p.names :=
  follow_of_no_dots hp _

theorem placeOf_below {more : List String} {q : Path} (hb : Below q more p) :
    d.placeOf p = d.placeOf q ++ more := by
  rw [placeOf, hb.start, hb.names, follow_append, follow_of_no_dots hb.down, placeOf]

theorem start_of_cwd {d' : Disk} (h : d'.cwd = d.cwd) (p : Path) : d'.start p = d.start p := by
  rw [start, start, h]

theorem placeOf_of_cwd {d' : Disk} (h : d'.cwd = d.cwd) (p : Path) : d'.placeOf p = d.placeOf p := by
  rw [placeOf, placeOf, start_of_cwd h]

theorem place_eq_absolute {spot : Spot} (hc : ∀ x ∈ d.cwd, IsPlain x)
    (h : walk d.root (d.start p) p.names = .ok spot) : spot.place = (d.absolute p).names := by
  rw [names_absolute hc, place_eq_follow h, placeOf]

theorem Finds.absolute {n : Node} (h : d.Finds p (.found l n)) (hc : ∀ x ∈ d.cwd, IsPlain x)
    (hr : (d.absolute p).Room k) : d.Finds (d.absolute p) (.found l n) := by
  have hnames : (d.absolute p).names = l := (place_eq_absolute hc h.leads).symm
  refine ⟨hr.noNul, by have := hr.short; omega, ?_⟩
  rw [start_absolute, hnames]
  exact walk_place (get_of_walk h.leads) (isPlain_of_mem_place h.leads (start_plain hc p))

end Disk

end Provision
