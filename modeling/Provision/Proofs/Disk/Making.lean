import Provision.Proofs.Disk.Creation
import Provision.Proofs.Disk.Shape

/-!
# Making directories where there are none

A path by names of entries that leads nowhere can be made, and is an empty directory then (`Missing.exists_makeDirs`).
A line more in the log does not matter to that (`Missing.of_grown`). Below a directory that can be made nothing is made
under a name that is too long: at most the directory itself is there then (`makeDirs_long`).
-/

namespace Provision

theorem Path.text_le_child {name : String} (p : Path) (hs : IsSingle name) :
    p.text.utf8ByteSize ≤ (p.child name).text.utf8ByteSize := by
  have hpos : 0 < name.utf8ByteSize := Nat.pos_of_ne_zero (String.utf8ByteSize_eq_zero_iff.not.2 hs.ne_empty)
  have hjoin : ("/".intercalate p.names).utf8ByteSize ≤ ("/".intercalate (p.names ++ [name])).utf8ByteSize ∧
      0 < ("/".intercalate (p.names ++ [name])).utf8ByteSize := by
    by_cases hn : p.names = []
    · rw [hn, List.nil_append, String.intercalate_singleton]
      exact ⟨Nat.zero_le _, hpos⟩
    · rw [String.intercalate_append_of_ne_nil hn (List.cons_ne_nil _ _), String.intercalate_singleton,
        String.utf8ByteSize_append, String.utf8ByteSize_append]
      omega
  have hne : "/".intercalate (p.names ++ [name]) ≠ "" := fun he => by
    rw [he, String.utf8ByteSize_empty] at hjoin
    omega
  rw [child_of_single p hs, text, text]
  cases p.anchor with
  | relative =>
    dsimp only
    rw [if_neg hne]
    split
    · exact hjoin.2
    · exact hjoin.1
  | root | twoSlashes =>
    simp only [String.utf8ByteSize_append]
    omega

namespace Disk

open Provision.Path (IsEntry)

variable {d d' d₁ : Disk} {p q : Path} {root root' : Node} {here names rest l : List String} {name x : String}
  {es : List (String × Node)} {e : DiskFault} {k : Nat} {u : Unit}

/-- Both spots are at one place, where there is something for both or nothing for both. -/
inductive Spot.Alike : Spot → Spot → Prop
  | found (l : List String) (n n' : Node) : Alike (.found l n) (.found l n')
  | absent (l : List String) : Alike (.absent l) (.absent l)

theorem lookup_none_of_keys {es' : List (String × Node)} (h : es'.map (·.1) = es.map (·.1)) (x : String) :
    es'.lookup x = none ↔ es.lookup x = none := by
  rw [lookup_eq_none, lookup_eq_none, h]

theorem walk_sameShape (h : Node.SameShape root root') :
    RelatedOutcome Eq Spot.Alike (walk root here names) (walk root' here names) := by
  induction names generalizing here with
  | nil =>
    rw [walk, walk]
    have hsome := h.isSome here
    cases hn : root.get? here <;> cases hn' : root'.get? here <;> rw [hn, hn'] at hsome
    case none.none => exact rfl
    case some.some => exact .found _ _ _
    all_goals cases hsome
  | cons name rest ih =>
    rw [walk, walk]
    have hnames := h here
    cases hn : root.get? here with
    | none =>
      rw [hn, Option.map_none, Option.map_eq_none_iff] at hnames
      rw [hnames]
      exact rfl
    | some n =>
      cases n with
      | file mode c =>
        obtain ⟨mode', c', hn'⟩ := (h.fileAt here).2 ⟨mode, c, hn⟩
        rw [hn']
        exact rfl
      | dir es =>
        obtain ⟨es', hn', hkeys⟩ := h.dir hn
        rw [hn']
        dsimp only
        split
        · exact ih
        · split
          · exact rfl
          · have hnone := lookup_none_of_keys hkeys name
            cases hc : es.lookup name with
            | none =>
              rw [hnone.2 hc]
              cases rest with
              | nil => exact .absent _
              | cons x xs => exact rfl
            | some c =>
              obtain ⟨c', hc'⟩ := Option.ne_none_iff_exists'.1 fun hc' => by cases hc.symm.trans (hnone.1 hc')
              rw [hc']
              exact ih

theorem Missing.of_grown (h : d.Missing p) (hg : Grown d d') : d'.Missing p := by
  have halike : RelatedOutcome Eq Spot.Alike (walk d.root (d.start p) p.names) (walk d'.root (d.start p) p.names) :=
    walk_sameShape hg.shape
  refine ⟨h.noNul, ?_⟩
  have hleads := h.leads
  rw [locate] at hleads ⊢
  rw [hg.start]
  split
  · rename_i hlong
    rw [if_pos hlong] at hleads
    exact hleads
  · rename_i hshort
    rw [if_neg hshort] at hleads
    rcases hleads with hw | ⟨l, hw⟩
    · rw [hw] at halike
      cases hw' : walk d'.root (d.start p) p.names with
      | ok spot =>
        rw [hw'] at halike
        exact halike.elim
      | error e =>
        rw [hw'] at halike
        exact .inl (congrArg Except.error (Eq.symm halike))
    · rw [hw] at halike
      cases hw' : walk d'.root (d.start p) p.names with
      | ok spot =>
        rw [hw'] at halike
        cases halike with
        | absent => exact .inr ⟨l, rfl⟩
      | error e =>
        rw [hw'] at halike
        exact halike.elim

/-! ### A path that leads nowhere -/

theorem Missing.not_finds {n : Node} (h : d.Missing p) : ¬ d.Finds p (.found l n) := by
  intro hf
  rcases h.leads with hl | ⟨l', hl⟩ <;> cases hl.symm.trans hf.locate

theorem Finds.parent {spot : Spot} (h : d.Finds (p.child name) spot) (hs : Path.IsSingle name) (hd : name ≠ "..") :
    ∃ l es, d.Finds p (.found l (.dir es)) ∧ spot = entrySpot l es name := by
  have hleads := h.leads
  rw [Path.start_child d p hs, Path.names_child p hs] at hleads
  obtain ⟨l, es, hw, -, hspot⟩ := walk_concat hd hleads
  exact ⟨l, es, ⟨Path.noNul_of_child hs h.noNul, Nat.lt_of_le_of_lt (p.text_le_child hs) h.short, hw⟩, hspot⟩

theorem missing_of_child (hs : Path.IsSingle name) (hp : p.Room k) (hc : (p.child name).Room k) (hn : IsPlain name)
    (h : d.locate (p.child name) = .error .noEntry) : d.Missing p := by
  rw [locate_of_room hc, Path.start_child d p hs, Path.names_child p hs] at h
  refine ⟨hp.noNul, ?_⟩
  rw [locate_of_room hp]
  cases hw : walk d.root (d.start p) p.names with
  | error e =>
    rw [walk_append_error hw] at h
    exact .inl h
  | ok spot =>
    cases spot with
    | absent l => exact .inr ⟨l, rfl⟩
    | found l n =>
      rw [walk_append hw] at h
      cases n with
      | file mode c =>
        rw [walk, get_of_walk hw] at h
        cases h
      | dir es =>
        rw [walk_last (get_of_walk hw) hn] at h
        cases h

theorem Missing.exists_makeDirs (h : d.Missing p) (hr : p.Room k) (hnames : ∀ x ∈ p.names, IsEntry x)
    (hstart : (d.root.get? (d.start p)).isSome = true) :
    ∃ d' l, (makeDirs p).run d = (.ok (), d') ∧ d'.Finds p (.found l (.dir [])) := by
  induction hlength : p.names.length generalizing p with
  | zero =>
    -- Without names the path leads to where it begins.
    obtain ⟨n, hn⟩ := Option.isSome_iff_exists.1 hstart
    have hw : d.locate p = .ok (.found (d.start p) n) := by
      rw [locate_of_room hr, List.length_eq_zero_iff.1 hlength]
      exact walk_nil hn
    rcases h.leads with hl | ⟨l, hl⟩ <;> cases hl.symm.trans hw
  | succ n ih =>
    obtain ⟨ns, x, hx⟩ : ∃ ns x, p.names = ns ++ [x] :=
      (List.eq_nil_or_concat p.names).elim (fun hnil => by rw [hnil] at hlength; cases hlength)
        fun ⟨ns, x, hx⟩ => ⟨ns, x, hx.trans List.concat_eq_append⟩
    have hentry : IsEntry x := hnames x (by rw [hx]; simp)
    obtain ⟨q, rfl⟩ : ∃ q : Path, p = q.child x := ⟨⟨p.anchor, ns⟩, by rw [Path.child_of_single _ hentry.single, ← hx]⟩
    rw [Path.names_child q hentry.single] at hnames hlength
    have hq : q.Room k :=
      ⟨Path.noNul_of_child hentry.single hr.noNul, by have := hr.short; have := q.text_le_child hentry.single; omega⟩
    rcases h.leads with hl | ⟨l, hl⟩
    · obtain ⟨d₁, l, hmade, hfinds⟩ := ih (missing_of_child hentry.single hq hr hentry.plain hl) hq
        (fun y hy => hnames y (List.mem_append_left _ hy)) (by rwa [Path.start_child d q hentry.single] at hstart)
        (by simpa using hlength)
      have habsent := hfinds.entry_none hentry hr rfl
      exact ⟨_, _, (run_makeDirs_child hmade hq hentry hr).trans (run_mkdirOk_absent habsent), habsent.setAt_absent _⟩
    · have habsent := finds_of_locate h.noNul hl
      exact ⟨_, _, run_makeDirs_absent habsent, habsent.setAt_absent _⟩

theorem walk_long (h : root.get? here = some (.dir es)) (hd : name ≠ "..") (hlong : longestName < name.utf8ByteSize)
    (rest : List String) : walk root here (name :: rest) = .error .nameTooLong := by
  rw [walk, h]
  exact (if_neg hd).trans (if_pos hlong)

theorem run_isDir_tooLong (hn : p.hasNul = false) (h : d.locate p = .error .nameTooLong) :
    (isDir p).run d = (.error (.refused .nameTooLong p.text none), d) := by
  have hprobe : (probe p).run d = (.error (.refused .nameTooLong p.text none), d) := by
    rw [run_probe_eq hn, h]
  rw [isDir, run_bind_error hprobe]

theorem run_mkdirOk_tooLong (hn : p.hasNul = false) (h : d.locate p = .error .nameTooLong) :
    (mkdirOk p).run d = (.error (.refused .nameTooLong p.text none), d) := by
  rw [mkdirOk, run_tryCatch_error (run_mkdir_error hn h)]
  exact run_bind_error (run_isDir_tooLong hn h)

theorem run_makeDirs_tooLong (hn : p.hasNul = false) (h : d.locate p = .error .nameTooLong) :
    (makeDirs p).run d = (.error (.refused .nameTooLong p.text none), d) :=
  (run_makeDirs_refused (by decide) (run_mkdir_error hn h)).trans (run_bind_error (run_isDir_tooLong hn h))

/-- A path with a name that is too long is refused for it, unless something is missing before. -/
theorem locate_long (hp : p.Room k) (hmade : (makeDirs p).run d = (.ok u, d')) (hd : name ≠ "..")
    (hlong : longestName < name.utf8ByteSize) (hanchor : q.anchor = p.anchor) (hq : q.names = p.names ++ name :: rest) :
    d'.locate q = .error .nameTooLong ∧
      (d.locate q = .error .nameTooLong ∨ d.locate q = .error .noEntry) := by
  have hfound : ∀ {d : Disk} {l : List String} {es : List (String × Node)}, d.Finds p (.found l (.dir es)) →
      d.locate q = .error .nameTooLong := by
    intro d l es hf
    rw [locate]
    split
    · rfl
    · have hstart : d.start q = d.start p := by rw [start, start, Path.isAbsolute, Path.isAbsolute, hanchor]
      rw [hstart, hq, walk_append hf.leads]
      exact walk_long (get_of_walk hf.leads) hd hlong rest
  obtain ⟨l, es, hf⟩ := finds_of_makeDirs hmade
  refine ⟨hfound hf, ?_⟩
  rcases makeDirs_eq_ok hmade with ⟨l, es, hf, -⟩ | hmissing
  · exact .inl (hfound hf)
  · rw [locate]
    split
    · exact .inl rfl
    · have hstart : d.start q = d.start p := by rw [start, start, Path.isAbsolute, Path.isAbsolute, hanchor]
      have hleads := hmissing.leads
      rw [locate_of_room hp] at hleads
      rw [hstart, hq]
      rcases hleads with hw | ⟨l, hw⟩
      · exact .inr (walk_append_error hw _)
      · exact .inr (walk_append_absent hw (List.cons_ne_nil _ _))

/-- Below a directory that can be made, nothing can be made under a name that is too long. -/
theorem makeDirs_long (hp : p.Room k) (hmade : (makeDirs p).run d = (.ok u, d₁)) (hs : Path.IsSingle name)
    (hd : name ≠ "..") (hlong : longestName < name.utf8ByteSize) (hx : Path.IsSingle x)
    (hn : ((p.child name).child x).hasNul = false) :
    ∃ e d', (makeDirs ((p.child name).child x)).run d = (.error e, d') ∧ (d' = d ∨ d' = d₁) := by
  have hn' := Path.noNul_of_child hx hn
  have hupper : ∃ e d', (makeDirs (p.child name)).run d = (.error e, d') ∧ (d' = d ∨ d' = d₁) := by
    obtain ⟨hlate, hl | hl⟩ := locate_long hp hmade hd hlong (by rw [Path.child_of_single p hs])
      (Path.names_child p hs)
    · exact ⟨_, d, run_makeDirs_tooLong hn' hl, .inl rfl⟩
    · have hne : (p.child name).names ≠ [] := by
        rw [Path.names_child p hs]
        exact List.concat_ne_nil name p.names
      have hparent : (makeDirs (p.child name).parent).run d = (.ok u, d₁) := by
        rw [Path.parent_child p hs]
        exact hmade
      exact ⟨_, d₁, (run_makeDirs_parent hn' hne hl hparent).trans (run_mkdirOk_tooLong hn' hlate), .inr rfl⟩
  have hnames : ((p.child name).child x).names = p.names ++ name :: [x] := by
    rw [Path.names_child _ hx, Path.names_child p hs, List.append_assoc]
    rfl
  have hanchor : ((p.child name).child x).anchor = p.anchor := by
    rw [Path.child_of_single _ hx, Path.child_of_single p hs]
  obtain ⟨-, hl | hl⟩ := locate_long hp hmade hd hlong hanchor hnames
  · exact ⟨_, d, run_makeDirs_tooLong hn hl, .inl rfl⟩
  · obtain ⟨e, d', hrun, hd'⟩ := hupper
    have hne : ((p.child name).child x).names ≠ [] := by
      rw [hnames]
      simp
    have hparent : (makeDirs ((p.child name).child x).parent).run d = (.error e, d') := by
      rw [Path.parent_child _ hx]
      exact hrun
    exact ⟨e, d', (run_makeDirs_noEntry hn hne hl).trans (run_bind_error hparent), hd'⟩

end Disk

end Provision
