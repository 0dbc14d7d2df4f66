import Provision.Disk.Basic
import Provision.Proofs.Text.Pieces

/-!
# Paths to entries of a directory

A single name (`IsSingle`) is a text that stands for one entry: it holds no slash, is not empty and not
a single dot. Going from a path to such a child adds one name to it, and every name of a path that was
read from a text is single.
-/

namespace Provision.Path

/-- A text that is one name of a path. -/
structure IsSingle (name : String) : Prop where
  noSlash : ∀ c ∈ name.toList, c ≠ '/'
  ne_empty : name ≠ ""
  ne_dot : name ≠ "."

variable {name : String}

theorem IsSingle.isProper (h : IsSingle name) : isProper name.toList = true := by
  have h1 : name.toList ≠ [] := fun he => h.ne_empty (String.toList_inj.1 (he.trans rfl))
  have h2 : name.toList ≠ ['.'] := fun he => h.ne_dot (String.toList_inj.1 (he.trans rfl))
  simp [Path.isProper, h1, h2]

theorem ofString_of_single (h : IsSingle name) : ofString name = ⟨.relative, [name]⟩ := by
  have hp : Text.pieces (· = '/') name.toList = [name.toList] :=
    Text.pieces_eq_singleton fun c hc => by simpa using h.noSlash c hc
  have ha : anchorOf name.toList = .relative := by
    have hs := h.noSlash
    cases hl : name.toList with
    | nil => rfl
    | cons c cs =>
      have hc : c ≠ '/' := hs c (by rw [hl]; exact List.mem_cons_self)
      unfold anchorOf
      split
      all_goals first
        | rfl
        | (rename_i heq; cases heq; exact absurd rfl hc)
  rw [ofString, hp, ha, List.filter_cons_of_pos h.isProper]
  simp

theorem single_of_mem_ofString {s x : String} (h : x ∈ (ofString s).names) : IsSingle x := by
  obtain ⟨cs, hcs, rfl⟩ := List.mem_map.1 h
  obtain ⟨hp, hproper⟩ := List.mem_filter.1 hcs
  simp only [Path.isProper, ne_eq, Bool.and_eq_true, decide_eq_true_eq] at hproper
  refine ⟨fun c hc => ?_, fun he => hproper.1 ?_, fun he => hproper.2 ?_⟩
  · rw [String.toList_ofList] at hc
    simpa using Text.not_sep_of_mem_pieces hp c hc
  · rw [← String.toList_ofList (l := cs), he]
    rfl
  · rw [← String.toList_ofList (l := cs), he]
    rfl

theorem names_eq_concat {p : Path} (h : p.name ≠ "") : ∃ ns, p.names = ns ++ [p.name] := by
  rcases List.eq_nil_or_concat p.names with hnil | ⟨ns, x, hx⟩
  · exact absurd (by rw [name, hnil]; rfl) h
  · rw [List.concat_eq_append] at hx
    exact ⟨ns, by rw [name, hx, List.getLastD_concat]⟩

theorem child_of_single (p : Path) (h : IsSingle name) :
    p.child name = { p with names := p.names ++ [name] } := by
  rw [child, ofString_of_single h]
  rfl

theorem entry_eq_child (p : Path) (h : IsSingle name) : p.entry name = p.child name :=
  (child_of_single p h).symm

theorem child_of_nowhere {text : String} (p : Path) (h : ofString text = ⟨.relative, []⟩) :
    p.child text = p := by
  rw [child, h]
  simp [join, isAbsolute]

theorem child_empty (p : Path) : p.child "" = p := child_of_nowhere p (by decide)

theorem child_dot (p : Path) : p.child "." = p := child_of_nowhere p (by decide)

theorem names_child (p : Path) (h : IsSingle name) : (p.child name).names = p.names ++ [name] := by
  rw [child_of_single p h]

theorem start_child (d : Disk) (p : Path) (h : IsSingle name) :
    d.start (p.child name) = d.start p := by
  rw [child_of_single p h]
  rfl

theorem name_child (p : Path) (h : IsSingle name) : (p.child name).name = name := by
  rw [child_of_single p h, Path.name]
  simp

theorem no_dots_collapse (names : List String) : ".." ∉ collapse names := by
  have hall : ∀ done : List String, ".." ∉ done →
      ".." ∉ names.foldl (fun done n => if n = ".." then done.dropLast else done ++ [n]) done := by
    induction names with
    | nil => exact fun _ h => h
    | cons n names ih =>
      intro done hdone
      rw [List.foldl_cons]
      split
      · exact ih _ fun h => hdone (List.dropLast_subset _ h)
      · rename_i hn
        refine ih _ fun h => ?_
        rcases List.mem_append.1 h with h | h
        · exact hdone h
        · exact hn (List.mem_singleton.1 h).symm
  exact hall [] List.not_mem_nil

end Provision.Path
