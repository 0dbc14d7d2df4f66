import Provision.Proofs.Disk.Operations
import Provision.Proofs.Disk.Paths

/-!
# Entries of a directory

A path that leads to a directory (`LeadsTo`) does so as long as directories stay, and a path that goes on
from it by plain names leads to a place below (`place_of_below`).
-/

namespace Provision.Disk

variable {d d' : Disk} {p q : Path} {l place : List String} {name : String} {spot : Spot}

/-- The path leads to a directory at the place. -/
def LeadsTo (d : Disk) (p : Path) (place : List String) : Prop :=
  ∃ es, walk d.root (d.start p) p.names = .ok (.found place (.dir es))

theorem LeadsTo.of_keeps (h : d.LeadsTo p place) (hk : Keeps l d d') : d'.LeadsTo p place := by
  obtain ⟨es, h⟩ := h
  rw [LeadsTo, hk.start]
  exact walk_dir_keepsDirs hk.dirs h

/-- The path goes on from another by names that do not lead up. -/
structure Below (q : Path) (more : List String) (p : Path) : Prop where
  anchor : p.anchor = q.anchor
  names : p.names = q.names ++ more
  down : ".." ∉ more

theorem Below.refl (p : Path) : Below p [] p := ⟨rfl, by rw [List.append_nil], List.not_mem_nil⟩

theorem Below.start {more : List String} (h : Below q more p) : d.start p = d.start q := by
  rw [Disk.start, Disk.start, Path.isAbsolute, Path.isAbsolute, h.anchor]

theorem Below.child {more : List String} (h : Below q more p) (hs : Path.IsSingle name)
    (hd : name ≠ "..") : Below q (more ++ [name]) (p.child name) := by
  rw [Path.child_of_single p hs]
  refine ⟨h.anchor, ?_, ?_⟩
  · rw [h.names, List.append_assoc]
  · rw [List.mem_append, List.mem_singleton, not_or]
    exact ⟨h.down, Ne.symm hd⟩

theorem Below.child_empty {more : List String} (h : Below q more p) : Below q more (p.child "") := by
  rwa [Path.child_empty]

theorem place_of_below {more : List String} (hq : d.LeadsTo q place) (hb : Below q more p)
    (h : walk d.root (d.start p) p.names = .ok spot) : spot.place = place ++ more := by
  obtain ⟨es, hq⟩ := hq
  rw [hb.start, hb.names, walk_append hq] at h
  exact place_of_walk hb.down h

theorem FileSpot.place_of_below {more : List String} (hq : d.LeadsTo q l) (hb : Below q more p)
    (h : d.FileSpot p place) : place = l ++ more := by
  obtain ⟨spot, hs, rfl⟩ := h.finds
  exact Disk.place_of_below hq hb hs.leads

theorem leadsTo_of_child (hs : Path.IsSingle name) (hd : name ≠ "..")
    (h : d.FileSpot (p.child name) place) : ∃ l, d.LeadsTo p l ∧ place = l ++ [name] := by
  obtain ⟨spot, hf, -⟩ := h.finds
  have hw := hf.leads
  rw [Path.start_child d p hs, Path.names_child p hs] at hw
  obtain ⟨l, es, hl, -, -⟩ := walk_concat hd hw
  exact ⟨l, ⟨es, hl⟩, h.place_of_below ⟨es, hl⟩ ((Below.refl p).child hs hd)⟩

theorem name_ne_dots {mode : Nat} {c : Content} (h : d.Finds p (.found l (.file mode c))) :
    p.name ≠ ".." := by
  intro hn
  have hw := h.leads
  rcases List.eq_nil_or_concat p.names with he | ⟨ns, x, he⟩
  · rw [Path.name, he] at hn
    exact absurd hn (by decide)
  · rw [List.concat_eq_append] at he
    have hx : x = ".." := by rw [← hn, Path.name, he]; simp
    subst hx
    rw [he] at hw
    obtain ⟨l₀, n₀, h₀, hw⟩ := walk_split (List.cons_ne_nil ".." []) hw
    obtain ⟨es, hes, -⟩ := walk_cons_eq_ok hw
    rw [walk_dots hes] at hw
    obtain ⟨n, hup, heq⟩ := walk_nil_eq_ok hw
    cases heq
    -- The place above a directory is a directory.
    rcases List.eq_nil_or_concat l₀ with rfl | ⟨l₁, y, rfl⟩
    · cases hup.symm.trans hes
    · rw [List.concat_eq_append, List.dropLast_concat] at hup
      rw [List.concat_eq_append] at hes
      obtain ⟨es', hes'⟩ := Node.isDir_of_get_append (by rw [hes]; rfl) (List.cons_ne_nil y [])
      rw [hup] at hes'
      cases hes'

end Provision.Disk

namespace Provision.Path

/-- The last name of a path below one with a single last name is single too, where it has one. -/
theorem single_name_child {p : Path} (hp : p.name = "" ∨ IsSingle p.name) (s : String) :
    (p.child s).name = "" ∨ IsSingle (p.child s).name := by
  have hlast : ∀ ns : List String, (∀ x ∈ ns, IsSingle x) → ns ≠ [] → IsSingle (ns.getLastD "") := by
    intro ns hns hne
    rw [List.getLastD_eq_getLast?, List.getLast?_eq_getLast_of_ne_nil hne, Option.getD_some]
    exact hns _ (List.getLast_mem hne)
  have hs : ∀ x ∈ (ofString s).names, IsSingle x := fun x hx => single_of_mem_ofString hx
  rw [child, join]
  split
  · by_cases he : (ofString s).names = []
    · exact .inl (by rw [name, he]; rfl)
    · exact .inr (hlast _ hs he)
  · by_cases he : (ofString s).names = []
    · rw [he, List.append_nil]
      exact hp
    · refine .inr ?_
      rw [name, List.getLastD_eq_getLast?, List.getLast?_append_of_ne_nil _ he,
        ← List.getLastD_eq_getLast?]
      exact hlast _ hs he

end Provision.Path
