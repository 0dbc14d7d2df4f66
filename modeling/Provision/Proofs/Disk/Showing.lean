import Provision.Proofs.Disk.Sparing

/-!
# What paths show

What a client can learn of a path is the node at its end, or why there is none (`Disk.shown`): asking,
reading and listing answer by that alone (`answer_read`). Names that lead to an entry of a directory, or
plain names to any place, go on to show what they showed as long as everything at the place stays
(`shown_walk_entry`, `shown_walk_plain`).
-/

namespace Provision

namespace Disk

/-- The node at a spot. A free name has none. -/
def Spot.shown : Spot → Except Errno Node
  | .found _ n => .ok n
  | .absent _ => .error .noEntry

/-- The node that a path leads to, or why it leads to none. -/
def shown (d : Disk) (p : Path) : Except Errno Node :=
  d.locate p >>= Spot.shown

variable {d d' : Disk} {p : Path} {l : List String}

theorem run_probe_shown (hn : p.hasNul = false) (d : Disk) :
    ((probe p).run d).1 =
      match d.shown p with
      | .ok n => .ok (some n)
      | .error .nameTooLong => .error (.refused .nameTooLong p.text none)
      | .error _ => .ok none := by
  rw [run_probe_eq hn, shown]
  cases d.locate p with
  | ok spot => cases spot <;> rfl
  | error e => cases e <;> rfl

theorem run_read_shown (hn : p.hasNul = false) (d : Disk) :
    ((read p).run d).1 =
      match d.shown p with
      | .ok (.file _ c) => .ok c
      | .ok (.dir _) => .error (.refused .isDirectory p.text none)
      | .error e => .error (.refused e p.text none) := by
  rw [read, run_bind, run_find_eq hn, shown]
  cases d.locate p with
  | error e => rfl
  | ok spot =>
    cases spot with
    | absent l => rfl
    | found l n => cases n <;> rfl

theorem run_list_shown (hn : p.hasNul = false) (d : Disk) :
    ((list p).run d).1 =
      match d.shown p with
      | .ok (.dir es) => .ok (sortByKey es)
      | .ok (.file _ _) => .error (.refused .notDirectory p.text none)
      | .error e => .error (.refused e p.text none) := by
  rw [list, run_bind, run_find_eq hn, shown]
  cases d.locate p with
  | error e => rfl
  | ok spot =>
    cases spot with
    | absent l => rfl
    | found l n => cases n <;> rfl

theorem answer_probe (h : d'.shown p = d.shown p) : ((probe p).run d').1 = ((probe p).run d).1 := by
  cases hn : p.hasNul with
  | true => rw [probe, hn]; rfl
  | false => rw [run_probe_shown hn, run_probe_shown hn, h]

theorem answer_read (h : d'.shown p = d.shown p) : ((read p).run d').1 = ((read p).run d).1 := by
  cases hn : p.hasNul with
  | true => rw [read, find, hn]; rfl
  | false => rw [run_read_shown hn, run_read_shown hn, h]

theorem answer_list (h : d'.shown p = d.shown p) : ((list p).run d').1 = ((list p).run d).1 := by
  cases hn : p.hasNul with
  | true => rw [list, find, hn]; rfl
  | false => rw [run_list_shown hn, run_list_shown hn, h]

theorem answer_isDir (h : d'.shown p = d.shown p) : ((isDir p).run d').1 = ((isDir p).run d).1 :=
  (readOnly_probe p).answer_bind (answer_probe h) fun _ => rfl

theorem answer_isFile (h : d'.shown p = d.shown p) : ((isFile p).run d').1 = ((isFile p).run d).1 :=
  (readOnly_probe p).answer_bind (answer_probe h) fun _ => rfl

theorem Finds.shown {n : Node} (h : d.Finds p (.found l n)) : d.shown p = .ok n := by
  rw [Disk.shown, h.locate]
  rfl

theorem finds_of_shown {n : Node} (hn : p.hasNul = false) (h : d.shown p = .ok n) :
    ∃ l, d.Finds p (.found l n) := by
  obtain ⟨spot, hl, h⟩ := Except.bind_eq_ok.1 h
  cases spot with
  | absent l => cases h
  | found l n => cases h; exact ⟨l, finds_of_locate hn hl⟩

/-- A name below a directory leads to a file if the directory has one under it. Two dots lead to a directory. -/
theorem run_probe_below {es : List (String × Node)} (h : d.Finds p (.found l (.dir es))) (x : String) :
    ((probe (p.entry x)).run d).1.map (·.filter Node.isFile) =
      if (p.entry x).hasNul then .ok none
      else if pathLimit ≤ (p.entry x).text.utf8ByteSize then
        .error (.refused .nameTooLong (p.entry x).text none)
      else if x = ".." then .ok none
      else if longestName < x.utf8ByteSize then .error (.refused .nameTooLong (p.entry x).text none)
      else .ok ((es.lookup x).filter Node.isFile) := by
  cases hn : (p.entry x).hasNul with
  | true => rw [probe, hn]; rfl
  | false =>
    have hleads : walk d.root (d.start (p.entry x)) (p.entry x).names = walk d.root l [x] := walk_append h.leads [x]
    have hdir := get_of_walk h.leads
    rw [if_neg Bool.false_ne_true, run_probe_eq hn, locate, hleads]
    by_cases hlong : pathLimit ≤ (p.entry x).text.utf8ByteSize
    · rw [if_pos hlong, if_pos hlong]
      rfl
    rw [if_neg hlong, if_neg hlong]
    by_cases hdots : x = ".."
    · obtain ⟨es', hparent⟩ : ∃ es', d.root.get? l.dropLast = some (.dir es') := by
        rcases List.eq_nil_or_concat l with rfl | ⟨l', y, rfl⟩
        · exact ⟨es, hdir⟩
        · rw [List.concat_eq_append] at hdir ⊢
          rw [List.dropLast_concat]
          exact Node.isDir_of_get_append (by rw [hdir]; rfl) (List.cons_ne_nil y [])
      rw [if_pos hdots, hdots, walk_dots hdir, walk_nil hparent]
      rfl
    rw [if_neg hdots]
    by_cases hsize : longestName < x.utf8ByteSize
    · rw [if_pos hsize, walk, hdir]
      simp only [if_neg hdots, if_pos hsize]
      rfl
    · rw [if_neg hsize, walk_last hdir ⟨hdots, Nat.le_of_not_lt hsize⟩, entrySpot]
      cases es.lookup x <;> rfl

theorem answer_probe_below {es : List (String × Node)} {l' : List String} (h : d.Finds p (.found l (.dir es)))
    (h' : d'.Finds p (.found l' (.dir es))) (x : String) :
    ((probe (p.entry x)).run d').1.map (·.filter Node.isFile) =
      ((probe (p.entry x)).run d).1.map (·.filter Node.isFile) := by
  rw [run_probe_below h, run_probe_below h']

theorem Finds.of_spares {n : Node} (h : d.Finds p (.found l n)) (hs : Spares l d d') :
    d'.Finds p (.found l n) := by
  refine ⟨h.noNul, h.short, ?_⟩
  rw [hs.start]
  exact walk_keepsDirs hs.dirs h.leads (hs.node.trans (get_of_walk h.leads))

/-! ### Trees that agree below a place -/

variable {root root' : Node} {here names more : List String}

theorem walk_congr (h : root'.get? here = root.get? here) (hn : ".." ∉ names) :
    walk root' here names = walk root here names := by
  induction names generalizing here with
  | nil => rw [walk, walk, h]
  | cons name names ih =>
    rw [List.mem_cons, not_or] at hn
    have hnext : root'.get? (here ++ [name]) = root.get? (here ++ [name]) := by
      rw [Node.get_append, Node.get_append, h]
    have hrest := ih hnext hn.2
    rw [walk, walk, h]
    split
    · rfl
    · rfl
    · rename_i es _
      simp only [if_neg (Ne.symm hn.1)]
      cases es.lookup name with
      | none => cases names <;> rfl
      | some n => simp only [hrest]

theorem not_fileAt_below (h : root.get? here = none) (t : List String) : ¬ root.FileAt (here ++ t) := by
  rintro ⟨mode, c, hfile⟩
  rw [Node.get_append, h] at hfile
  cases hfile

theorem not_fileAt_of_dir {es : List (String × Node)} (h : root.get? here = some (.dir es)) :
    ¬ root.FileAt here := by
  rintro ⟨mode, c, hfile⟩
  cases h.symm.trans hfile

/-- Plain names towards a place where nothing is end at a file on the way, or where a name is free. -/
theorem shown_walk_none (hnone : root.get? (here ++ names) = none) (hp : ∀ x ∈ names, IsPlain x)
    (more : List String) :
    (walk root here (names ++ more) >>= Spot.shown) = .error .noEntry ∧
        (∀ t, t <+: names → ¬ root.FileAt (here ++ t)) ∨
      (walk root here (names ++ more) >>= Spot.shown) = .error .notDirectory ∧
        ∃ t, t <+: names ∧ root.FileAt (here ++ t) := by
  induction names generalizing here with
  | nil =>
    rw [List.append_nil] at hnone
    refine .inl ⟨?_, fun t _ => not_fileAt_below hnone t⟩
    cases more <;> (rw [List.nil_append, walk, hnone]; rfl)
  | cons x xs ih =>
    rw [List.cons_append, walk]
    cases hhere : root.get? here with
    | none => exact .inl ⟨rfl, fun t _ => not_fileAt_below hhere t⟩
    | some n =>
      cases n with
      | file mode c =>
        refine .inr ⟨rfl, [], List.nil_prefix, mode, c, ?_⟩
        rw [List.append_nil, hhere]
      | dir es =>
        have hx := hp x List.mem_cons_self
        have hdir : ¬ root.FileAt (here ++ []) := (List.append_nil here).symm ▸ not_fileAt_of_dir hhere
        have hcons : ∀ t, here ++ x :: t = here ++ [x] ++ t := by simp
        simp only [if_neg hx.ne_dots, if_neg (Nat.not_lt.2 hx.size)]
        cases hl : es.lookup x with
        | none =>
          refine .inl ⟨?_, fun t ht => ?_⟩
          · cases xs ++ more <;> rfl
          · rcases List.prefix_cons_iff.1 ht with rfl | ⟨u, rfl, -⟩
            · exact hdir
            · rw [hcons]
              exact not_fileAt_below ((Node.get_concat_of_dir hhere x).trans hl) u
        | some n =>
          rw [hcons] at hnone
          rcases ih hnone fun y hy => hp y (List.mem_cons_of_mem x hy)
            with ⟨hshown, hfiles⟩ | ⟨hshown, t, ht, hfile⟩
          · refine .inl ⟨hshown, fun t ht => ?_⟩
            rcases List.prefix_cons_iff.1 ht with rfl | ⟨u, rfl, hu⟩
            · exact hdir
            · rw [hcons]
              exact hfiles u hu
          · exact .inr ⟨hshown, x :: t, (List.prefix_cons_inj x).2 ht, by rwa [hcons]⟩

/-- Below an entry of a directory that stays, names that do not lead up show what they showed. -/
theorem shown_walk_entry {es es' : List (String × Node)} {name : String}
    (h : root.get? here = some (.dir es)) (h' : root'.get? here = some (.dir es'))
    (hsame : root'.get? (here ++ [name]) = root.get? (here ++ [name])) (hd : name ≠ "..")
    (hn : ".." ∉ more) :
    (walk root' here (name :: more) >>= Spot.shown) = (walk root here (name :: more) >>= Spot.shown) := by
  have hlookup : es'.lookup name = es.lookup name := by
    rw [← Node.get_concat_of_dir h, ← Node.get_concat_of_dir h', hsame]
  have hbelow := walk_congr hsame hn
  rw [walk, walk, h, h']
  simp only [if_neg hd, hlookup]
  split
  · rfl
  · cases es.lookup name with
    | none => cases more <;> rfl
    | some n => simp only [hbelow]

/-- An entry of a directory shows what it showed where the directory is still there, with the same entry. -/
theorem shown_child {name : String} (h : d.LeadsTo p l) (h' : d'.LeadsTo p l) (hs : Path.IsSingle name)
    (hd : name ≠ "..")
    (hsame : d'.root.get? (l ++ [name]) = d.root.get? (l ++ [name])) :
    d'.shown (p.child name) = d.shown (p.child name) := by
  obtain ⟨es, h⟩ := h
  obtain ⟨es', h'⟩ := h'
  rw [shown, shown, locate, locate]
  split
  · rfl
  · rw [Path.start_child _ p hs, Path.start_child _ p hs, Path.names_child p hs, walk_append h,
      walk_append h']
    exact shown_walk_entry (get_of_walk h) (get_of_walk h') hsame hd List.not_mem_nil

/-- Plain names to a place, and from there on names that do not lead up, show what they showed if the
place and the files on the way to it are the same. -/
theorem shown_walk_plain (hsame : root'.get? (here ++ names) = root.get? (here ++ names))
    (hfiles : ∀ t, t <+: here ++ names → (root'.FileAt t ↔ root.FileAt t))
    (hp : ∀ x ∈ names, IsPlain x) (hn : ".." ∉ more) :
    (walk root' here (names ++ more) >>= Spot.shown) = (walk root here (names ++ more) >>= Spot.shown) := by
  cases hg : root.get? (here ++ names) with
  | some n =>
    rw [walk_append (walk_place hg hp), walk_append (walk_place (hsame.trans hg) hp),
      walk_congr hsame hn]
  | none =>
    have hway : ∀ t, t <+: names → (root'.FileAt (here ++ t) ↔ root.FileAt (here ++ t)) := fun t ht =>
      hfiles _ ((List.prefix_append_right_inj here).2 ht)
    rcases shown_walk_none hg hp more with ⟨h, hno⟩ | ⟨h, t, ht, hfile⟩ <;>
      rcases shown_walk_none (hsame.trans hg) hp more with ⟨h', hno'⟩ | ⟨h', t', ht', hfile'⟩
    · rw [h, h']
    · exact absurd ((hway t' ht').1 hfile') (hno t' ht')
    · exact absurd ((hway t ht).2 hfile) (hno' t ht)
    · rw [h, h']

end Disk

end Provision
