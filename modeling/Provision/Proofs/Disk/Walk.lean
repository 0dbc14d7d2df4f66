import Provision.Disk.Basic
import Provision.Proofs.Disk.Tree

/-!
# Where paths lead

A path leads through directories. Two paths of which one goes on where the other ends lead through the
same places (`walk_append`, `walk_split`), and a path that ends in a directory leads there as long as
all directories stay (`walk_keepsDirs`).
-/

namespace Provision

namespace Disk

variable {root root' : Node} {here l : List String} {names rest : List String} {name : String}
  {n : Node} {spot : Spot} {es : List (String × Node)}

/-- A name that stands for an entry of a directory, short enough to be one. -/
structure IsPlain (name : String) : Prop where
  ne_dots : name ≠ ".."
  size : name.utf8ByteSize ≤ longestName

theorem walk_dots (h : root.get? here = some (.dir es)) (rest : List String) :
    walk root here (".." :: rest) = walk root here.dropLast rest := by
  rw [walk, h]
  exact if_pos rfl

theorem walk_entry (h : root.get? here = some (.dir es)) (hn : IsPlain name)
    (hc : es.lookup name = some n) (rest : List String) :
    walk root here (name :: rest) = walk root (here ++ [name]) rest := by
  rw [walk, h]
  simp only [if_neg hn.ne_dots, if_neg (Nat.not_lt.2 hn.size), hc]

theorem walk_absent (h : root.get? here = some (.dir es)) (hn : IsPlain name)
    (hc : es.lookup name = none) : walk root here [name] = .ok (.absent (here ++ [name])) := by
  rw [walk, h]
  simp only [if_neg hn.ne_dots, if_neg (Nat.not_lt.2 hn.size), hc]

theorem walk_cons_eq_ok (h : walk root here (name :: rest) = .ok spot) :
    ∃ es, root.get? here = some (.dir es) ∧
      ((name = ".." ∧ walk root here.dropLast rest = .ok spot) ∨
        (IsPlain name ∧
          ((∃ n, es.lookup name = some n ∧ walk root (here ++ [name]) rest = .ok spot) ∨
            (es.lookup name = none ∧ rest = [] ∧ spot = .absent (here ++ [name]))))) := by
  rw [walk] at h
  split at h
  · cases h
  · cases h
  · rename_i es hes
    refine ⟨es, hes, ?_⟩
    split at h
    · rename_i hd; exact .inl ⟨hd, h⟩
    · rename_i hd
      split at h
      · cases h
      · rename_i hl
        refine .inr ⟨⟨hd, Nat.le_of_not_lt hl⟩, ?_⟩
        split at h
        · rename_i n hc; exact .inl ⟨n, hc, h⟩
        · rename_i hc; cases h; exact .inr ⟨hc, rfl, rfl⟩
        · cases h

theorem walk_nil_eq_ok (h : walk root here [] = .ok spot) :
    ∃ n, root.get? here = some n ∧ spot = .found here n := by
  rw [walk] at h
  split at h
  · rename_i n hn; cases h; exact ⟨n, hn, rfl⟩
  · cases h

theorem walk_nil (h : root.get? here = some n) : walk root here [] = .ok (.found here n) := by
  rw [walk, h]

theorem get_of_walk (h : walk root here names = .ok (.found l n)) : root.get? l = some n := by
  induction names generalizing here with
  | nil =>
    obtain ⟨n', hn, heq⟩ := walk_nil_eq_ok h
    cases heq
    exact hn
  | cons name rest ih =>
    obtain ⟨es, -, ⟨-, hw⟩ | ⟨-, ⟨_, -, hw⟩ | ⟨-, -, heq⟩⟩⟩ := walk_cons_eq_ok h
    · exact ih hw
    · exact ih hw
    · cases heq

theorem get_of_walk_absent (h : walk root here names = .ok (.absent l)) :
    ∃ l' x es, l = l' ++ [x] ∧ root.get? l' = some (.dir es) ∧ es.lookup x = none := by
  induction names generalizing here with
  | nil =>
    obtain ⟨n', -, heq⟩ := walk_nil_eq_ok h
    cases heq
  | cons name rest ih =>
    obtain ⟨es, hes, ⟨-, hw⟩ | ⟨-, ⟨_, -, hw⟩ | ⟨hc, -, heq⟩⟩⟩ := walk_cons_eq_ok h
    · exact ih hw
    · exact ih hw
    · cases heq
      exact ⟨here, name, es, rfl, hes, hc⟩

theorem get_absent (h : walk root here names = .ok (.absent l)) : root.get? l = none := by
  obtain ⟨l', x, es, rfl, hl, hx⟩ := get_of_walk_absent h
  rw [Node.get_concat_of_dir hl, hx]

theorem noDirAt_of_absent (h : walk root here names = .ok (.absent l)) : root.NoDirAt l := by
  intro es hes
  cases (get_absent h).symm.trans hes

theorem walk_append (h : walk root here names = .ok (.found l n)) (rest : List String) :
    walk root here (names ++ rest) = walk root l rest := by
  induction names generalizing here with
  | nil =>
    obtain ⟨n', -, heq⟩ := walk_nil_eq_ok h
    cases heq
    rfl
  | cons name names ih =>
    rw [List.cons_append]
    obtain ⟨es, hes, ⟨rfl, hw⟩ | ⟨hp, ⟨c, hc, hw⟩ | ⟨-, -, heq⟩⟩⟩ := walk_cons_eq_ok h
    · rw [walk_dots hes, ih hw]
    · rw [walk_entry hes hp hc, ih hw]
    · cases heq

theorem walk_split (hr : rest ≠ []) (h : walk root here (names ++ rest) = .ok spot) :
    ∃ l n, walk root here names = .ok (.found l n) ∧ walk root l rest = .ok spot := by
  induction names generalizing here with
  | nil =>
    obtain ⟨name, rest, rfl⟩ := List.exists_cons_of_ne_nil hr
    obtain ⟨es, hes, -⟩ := walk_cons_eq_ok h
    exact ⟨here, .dir es, walk_nil hes, h⟩
  | cons name names ih =>
    rw [List.cons_append] at h
    obtain ⟨es, hes, ⟨rfl, hw⟩ | ⟨hp, ⟨c, hc, hw⟩ | ⟨-, he, -⟩⟩⟩ := walk_cons_eq_ok h
    · obtain ⟨l, n, h1, h2⟩ := ih hw
      exact ⟨l, n, by rw [walk_dots hes, h1], h2⟩
    · obtain ⟨l, n, h1, h2⟩ := ih hw
      exact ⟨l, n, by rw [walk_entry hes hp hc, h1], h2⟩
    · exact absurd (List.append_eq_nil_iff.1 he).2 hr

/-- The place of a spot, whatever is there. -/
def Spot.place : Spot → List String
  | .found l _ => l
  | .absent l => l

/-- Where names lead from a place, two dots one up. -/
def follow (here names : List String) : List String :=
  names.foldl (fun done n => if n = ".." then done.dropLast else done ++ [n]) here

theorem follow_append (here names rest : List String) :
    follow here (names ++ rest) = follow (follow here names) rest :=
  List.foldl_append

theorem follow_of_no_dots (hn : ".." ∉ names) (here : List String) :
    follow here names = here ++ names := by
  induction names generalizing here with
  | nil => exact (List.append_nil here).symm
  | cons x xs ih =>
    rw [List.mem_cons, not_or] at hn
    rw [follow, List.foldl_cons, if_neg (Ne.symm hn.1), ← follow, ih hn.2, List.append_assoc]
    rfl

theorem place_eq_follow (h : walk root here names = .ok spot) : spot.place = follow here names := by
  induction names generalizing here with
  | nil =>
    obtain ⟨n, -, rfl⟩ := walk_nil_eq_ok h
    rfl
  | cons name names ih =>
    rw [follow, List.foldl_cons]
    obtain ⟨es, hes, ⟨rfl, hw⟩ | ⟨hp, ⟨n, hc, hw⟩ | ⟨hc, rfl, rfl⟩⟩⟩ := walk_cons_eq_ok h
    · rw [if_pos rfl, ih hw, follow]
    · rw [if_neg hp.ne_dots, ih hw, follow]
    · rw [if_neg hp.ne_dots]
      rfl

theorem place_of_walk (hn : ".." ∉ names) (h : walk root here names = .ok spot) :
    spot.place = here ++ names := by
  rw [place_eq_follow h, follow_of_no_dots hn]

/-- What the last name of a path leads to, seen from the directory before it. -/
def entrySpot (l : List String) (es : List (String × Node)) (name : String) : Spot :=
  match es.lookup name with
  | some n => .found (l ++ [name]) n
  | none => .absent (l ++ [name])

theorem walk_last (h : root.get? here = some (.dir es)) (hn : IsPlain name) :
    walk root here [name] = .ok (entrySpot here es name) := by
  rw [entrySpot]
  split
  · rename_i n hc
    rw [walk_entry h hn hc, walk_nil ((Node.get_concat_of_dir h name).trans hc)]
  · rename_i hc
    exact walk_absent h hn hc

theorem walk_concat (hd : name ≠ "..") (h : walk root here (names ++ [name]) = .ok spot) :
    ∃ l es, walk root here names = .ok (.found l (.dir es)) ∧ IsPlain name ∧
      spot = entrySpot l es name := by
  obtain ⟨l, n, h1, h2⟩ := walk_split (List.cons_ne_nil name []) h
  obtain ⟨es, hes, ⟨hd', -⟩ | ⟨hp, -⟩⟩ := walk_cons_eq_ok h2
  · exact absurd hd' hd
  · have hn : n = .dir es := Option.some.inj ((get_of_walk h1).symm.trans hes)
    rw [walk_last hes hp] at h2
    exact ⟨l, es, by rw [h1, hn], hp, (Except.ok.inj h2).symm⟩

/-! ### While directories stay -/

theorem isSome_of_walk (h : walk root here names = .ok spot) :
    (root.get? here).isSome = true := by
  cases names with
  | nil =>
    obtain ⟨n, hn, -⟩ := walk_nil_eq_ok h
    rw [hn]; rfl
  | cons name rest =>
    obtain ⟨es, hes, -⟩ := walk_cons_eq_ok h
    rw [hes]; rfl

/-- Every directory that the names lead through stays one. -/
def KeepsWay (root root' : Node) (here names : List String) : Prop :=
  ∀ ns es, ns <+: names → root.get? (follow here ns) = some (.dir es) →
    ∃ es', root'.get? (follow here ns) = some (.dir es')

/-- A path leads to the same place as long as the directories on its way stay and something is there. -/
theorem walk_keepsWay {n : Node} (hk : KeepsWay root root' here names)
    (h : walk root here names = .ok spot) (hn : root'.get? spot.place = some n) :
    walk root' here names = .ok (.found spot.place n) := by
  induction names generalizing here with
  | nil =>
    obtain ⟨n', -, rfl⟩ := walk_nil_eq_ok h
    exact walk_nil hn
  | cons name rest ih =>
    obtain ⟨es, hes, hw⟩ := walk_cons_eq_ok h
    obtain ⟨es', hes'⟩ : ∃ es', root'.get? here = some (.dir es') := hk [] es List.nil_prefix hes
    -- What is left of the way begins one name further.
    have hrest : KeepsWay root root' (if name = ".." then here.dropLast else here ++ [name]) rest :=
      fun ns es hns hes => hk (name :: ns) es ((List.prefix_cons_inj name).2 hns) hes
    rcases hw with ⟨rfl, hw⟩ | ⟨hp, ⟨c, hc, hw⟩ | ⟨-, rfl, rfl⟩⟩
    · rw [if_pos rfl] at hrest
      rw [walk_dots hes', ih hrest hw]
    · rw [if_neg hp.ne_dots] at hrest
      obtain ⟨c', hc'⟩ := Option.isSome_iff_exists.1 (isSome_of_walk (ih hrest hw))
      rw [walk_entry hes' hp ((Node.get_concat_of_dir hes' name).symm.trans hc'), ih hrest hw]
    · rw [walk_entry hes' hp ((Node.get_concat_of_dir hes' name).symm.trans hn)]
      exact walk_nil hn

/-- A path leads to the same place as long as all directories stay and something is there. -/
theorem walk_keepsDirs {n : Node} (hk : Node.KeepsDirs root root')
    (h : walk root here names = .ok spot) (hn : root'.get? spot.place = some n) :
    walk root' here names = .ok (.found spot.place n) :=
  walk_keepsWay (fun _ _ _ hes => hk _ _ hes) h hn

theorem walk_dir_keepsDirs (hk : Node.KeepsDirs root root')
    (h : walk root here names = .ok (.found l (.dir es))) :
    ∃ es', walk root' here names = .ok (.found l (.dir es')) := by
  obtain ⟨es', hes'⟩ := hk l es (get_of_walk h)
  exact ⟨es', walk_keepsDirs hk h hes'⟩

end Disk

end Provision
