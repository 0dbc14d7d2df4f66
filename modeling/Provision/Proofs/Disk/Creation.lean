import Provision.Proofs.Decimal.Digits
import Provision.Proofs.Disk.Room

/-!
# Making directories and moving files

What operations that make something do where nothing stands in their way. Making a directory below one
that can be made is making the upper one and then the lower (`run_makeDirs_child`), a temporary file gets
the first name that is free, and a move takes a file from one place to another (`run_rename`).
-/

namespace Provision.Disk

open Provision.Path (IsEntry)

variable {d d' : Disk} {p q : Path} {l place : List String} {es : List (String × Node)} {name : String}
  {n : Node} {k k' : Nat} {u : Unit} {troubles : Troubles}

theorem Finds.setAt_absent (h : d.Finds p (.absent place)) (n : Node) :
    (d.setAt place (some n)).Finds p (.found place n) :=
  ⟨h.noNul, h.short, walk_keepsDirs (Node.keepsDirs_set _ (FileSpot.noDirAt (.inl h))) h.leads
    (FileSpot.get_setAt (.inl h) n)⟩

theorem Finds.setAt_file {mode : Nat} {c : Content} (h : d.Finds p (.found place (.file mode c)))
    (n : Node) : (d.setAt place (some n)).Finds p (.found place n) :=
  ⟨h.noNul, h.short, walk_keepsDirs (Node.keepsDirs_set _ (FileSpot.noDirAt (.inr ⟨mode, c, h⟩)))
    h.leads (FileSpot.get_setAt (.inr ⟨mode, c, h⟩) n)⟩

theorem Finds.setAt_below {m : Option Node} {t : List String} {es' : List (String × Node)}
    (h : d.Finds p (.found l (.dir es))) (hno : d.root.NoDirAt (l ++ t)) (ht : t ≠ [])
    (hes : (Node.dir es).set m t = .dir es') :
    (d.setAt (l ++ t) m).Finds p (.found l (.dir es')) := by
  have hget : (d.setAt (l ++ t) m).root.get? l = some (.dir es') := by
    rw [setAt_root, Node.get_set_above _ _ _ ht, get_of_walk h.leads, Option.map_some, hes]
  exact ⟨h.noNul, h.short, walk_keepsDirs (Node.keepsDirs_set m hno) h.leads hget⟩

theorem Finds.setAt_apart (h : d.Finds p (.found l n)) (m : Option Node) (hno : d.root.NoDirAt place)
    (hbelow : ¬ place <+: l) (habove : ¬ l <+: place) : (d.setAt place m).Finds p (.found l n) :=
  ⟨h.noNul, h.short, walk_keepsDirs (Node.keepsDirs_set m hno) h.leads
    ((Node.get_set_apart _ _ hbelow habove).trans (get_of_walk h.leads))⟩

theorem run_mkdir_found (h : d.Finds p (.found l n)) :
    (mkdir p).run d = (.error (.refused .exists p.text none), d) := by
  rw [mkdir, run_find_bind h]
  rfl

theorem run_mkdir_absent (h : d.Finds p (.absent l)) :
    (mkdir p).run d = (.ok (), d.setAt l (some (.dir []))) := by
  rw [mkdir, run_find_bind h]
  rfl

theorem run_mkdir_error {e : Errno} (hn : p.hasNul = false) (h : d.locate p = .error e) :
    (mkdir p).run d = (.error (.refused e p.text none), d) := by
  have hf : (find p).run d = (.error (.refused e p.text none), d) := by
    rw [run_find_eq hn, h]
  rw [mkdir, run_bind_error hf]

theorem run_unlessDir {fault : DiskFault} (h : d.Finds p (.found l (.dir es))) :
    (do if !(← isDir p) then throw fault : DiskM Unit).run d = (.ok (), d) := by
  rw [run_bind_ok (run_isDir_found h)]
  rfl

theorem run_mkdirOk_found (h : d.Finds p (.found l (.dir es))) :
    (mkdirOk p).run d = (.ok (), d) := by
  rw [mkdirOk, run_tryCatch_error (run_mkdir_found h)]
  exact run_unlessDir h

theorem run_mkdirOk_file {mode : Nat} {c : Content} (h : d.Finds p (.found l (.file mode c))) :
    (mkdirOk p).run d = (.error (.refused .exists p.text none), d) := by
  rw [mkdirOk, run_tryCatch_error (run_mkdir_found h)]
  change (do if !(← isDir p) then throw (.refused .exists p.text none) : DiskM Unit).run d = _
  rw [run_bind_ok (run_isDir_found h)]
  rfl

theorem run_mkdirOk_absent (h : d.Finds p (.absent l)) :
    (mkdirOk p).run d = (.ok (), d.setAt l (some (.dir []))) := by
  rw [mkdirOk, run_tryCatch_ok (run_mkdir_absent h)]

theorem run_makeDirs_found (h : d.Finds p (.found l (.dir es))) :
    (makeDirs p).run d = (.ok (), d) := by
  rw [makeDirs]
  cases p.names.length with
  | zero => exact run_mkdirOk_found h
  | succ depth =>
    rw [makeDirsWithin, run_tryCatch_error (run_mkdir_found h)]
    exact run_unlessDir h

theorem run_makeDirs_absent (h : d.Finds p (.absent l)) :
    (makeDirs p).run d = (.ok (), d.setAt l (some (.dir []))) := by
  rw [makeDirs]
  cases p.names.length with
  | zero => exact run_mkdirOk_absent h
  | succ depth => rw [makeDirsWithin, run_tryCatch_ok (run_mkdir_absent h)]

/-- A refusal for another cause than a missing parent is passed over where a directory is there. -/
theorem run_makeDirs_refused {e : Errno} {t : String} {o : Option String} (he : e ≠ .noEntry)
    (h : (mkdir p).run d = (.error (.refused e t o), d)) :
    (makeDirs p).run d = (do if !(← isDir p) then throw (.refused e t o) : DiskM Unit).run d := by
  rw [makeDirs]
  cases p.names.length with
  | zero => rw [makeDirsWithin, mkdirOk, run_tryCatch_error h]
  | succ depth =>
    rw [makeDirsWithin, run_tryCatch_error h]
    cases e with
    | noEntry => exact absurd rfl he
    | _ => rfl

theorem run_makeDirs_nul (h : p.hasNul = true) : (makeDirs p troubles).run d = (.error .nulByte, d) := by
  have hm : (mkdir p troubles).run d = (.error .nulByte, d) := by
    rw [mkdir, run_bind_error (run_find_nul h _ d)]
  rw [makeDirs]
  cases p.names.length with
  | zero => rw [makeDirsWithin, mkdirOk, run_tryCatch_error hm]; rfl
  | succ depth => rw [makeDirsWithin, run_tryCatch_error hm]; rfl

theorem probe_eq_some (hn : p.hasNul = false) (h : (probe p troubles).run d = (.ok (some n), d')) :
    ∃ l, d.Finds p (.found l n) := by
  rw [probe, hn] at h
  obtain ⟨_, _, h1, h⟩ := run_bind_eq_ok.1 h
  cases h1
  split at h
  · cases h
  · obtain ⟨_, _, h1, h⟩ := run_bind_eq_ok.1 h
    cases h1
    split at h
    · rename_i l n hl
      cases h
      exact ⟨l, finds_of_locate hn hl⟩
    all_goals cases h

theorem isDir_eq_true (hn : p.hasNul = false) (h : (isDir p troubles).run d = (.ok true, d')) :
    ∃ l es, d.Finds p (.found l (.dir es)) := by
  obtain ⟨o, d₁, h1, h2⟩ := run_bind_eq_ok.1 h
  cases o with
  | none => cases h2
  | some n =>
    obtain ⟨l, hf⟩ := probe_eq_some hn h1
    cases n with
    | file mode c => cases h2
    | dir es => exact ⟨l, es, hf⟩

theorem unlessDir_eq_ok {fault : DiskFault} (hn : p.hasNul = false)
    (h : (do if !(← isDir p troubles) then throw fault : DiskM Unit).run d = (.ok u, d')) :
    ∃ l es, d.Finds p (.found l (.dir es)) ∧ d' = d := by
  obtain ⟨b, d₁, h1, h2⟩ := run_bind_eq_ok.1 h
  obtain rfl := (readOnly_isDir p).run_eq h1
  cases b with
  | false => cases h2
  | true =>
    cases h2
    obtain ⟨l, es, hf⟩ := isDir_eq_true hn h1
    exact ⟨l, es, hf, rfl⟩

theorem makeDirs_eq_ok (h : (makeDirs p).run d = (.ok u, d')) :
    (∃ l es, d.Finds p (.found l (.dir es)) ∧ d' = d) ∨ d.Missing p := by
  cases hn : p.hasNul with
  | true =>
    rw [run_makeDirs_nul hn] at h
    cases h
  | false =>
    cases hl : d.locate p with
    | ok spot =>
      cases spot with
      | absent l => exact .inr ⟨hn, .inr ⟨l, hl⟩⟩
      | found l n =>
        rw [run_makeDirs_refused (by decide) (run_mkdir_found (finds_of_locate hn hl))] at h
        exact .inl (unlessDir_eq_ok hn h)
    | error e =>
      by_cases he : e = .noEntry
      · exact .inr ⟨hn, .inl (he ▸ hl)⟩
      · rw [run_makeDirs_refused he (run_mkdir_error hn hl)] at h
        exact .inl (unlessDir_eq_ok hn h)

theorem mkdir_eq_ok (h : (mkdir p troubles).run d = (.ok u, d')) :
    ∃ l, d.Finds p (.absent l) ∧ d' = d.setAt l (some (.dir [])) := by
  obtain ⟨spot, hf, h⟩ := find_bind_eq_ok h
  split at h
  · cases h
  · cases h; exact ⟨_, hf, rfl⟩

theorem finds_of_mkdirOk (hn : p.hasNul = false) (h : (mkdirOk p troubles).run d = (.ok u, d')) :
    ∃ l es, d'.Finds p (.found l (.dir es)) := by
  rcases hm : (mkdir p troubles).run d with ⟨e | _, d₁⟩
  · rw [mkdirOk, run_tryCatch_error hm] at h
    split at h
    · obtain ⟨l, es, hf, rfl⟩ := unlessDir_eq_ok hn h
      exact ⟨l, es, hf⟩
    · cases h
  · rw [mkdirOk, run_tryCatch_ok hm] at h
    cases h
    obtain ⟨l, hf, rfl⟩ := mkdir_eq_ok hm
    exact ⟨l, [], hf.setAt_absent _⟩

theorem finds_of_makeDirs (h : (makeDirs p troubles).run d = (.ok u, d')) :
    ∃ l es, d'.Finds p (.found l (.dir es)) := by
  cases hn : p.hasNul with
  | true =>
    rw [run_makeDirs_nul hn] at h
    cases h
  | false =>
    rw [makeDirs] at h
    cases hdepth : p.names.length with
    | zero =>
      rw [hdepth] at h
      exact finds_of_mkdirOk hn h
    | succ depth =>
      rw [hdepth] at h
      rcases hm : (mkdir p troubles).run d with ⟨e | _, d₁⟩
      · rw [makeDirsWithin, run_tryCatch_error hm] at h
        split at h
        · obtain ⟨_, d₂, -, h⟩ := run_bind_eq_ok.1 h
          exact finds_of_mkdirOk hn h
        · obtain ⟨l, es, hf, rfl⟩ := unlessDir_eq_ok hn h
          exact ⟨l, es, hf⟩
        · cases h
      · rw [makeDirsWithin, run_tryCatch_ok hm] at h
        cases h
        obtain ⟨l, hf, rfl⟩ := mkdir_eq_ok hm
        exact ⟨l, [], hf.setAt_absent _⟩

theorem run_makeDirs_noEntry (hn : p.hasNul = false) (hp : p.names ≠ []) (h : d.locate p = .error .noEntry) :
    (makeDirs p).run d = (do makeDirs p.parent; mkdirOk p : DiskM Unit).run d := by
  have hlength : p.names.length = p.parent.names.length + 1 := by
    have := List.length_pos_of_ne_nil hp
    rw [Path.parent, List.length_dropLast]
    omega
  rw [makeDirs, hlength, makeDirsWithin, run_tryCatch_error (run_mkdir_error hn h)]
  rfl

theorem run_makeDirs_parent (hn : p.hasNul = false) (hp : p.names ≠ [])
    (h : d.locate p = .error .noEntry) (hparent : (makeDirs p.parent).run d = (.ok u, d')) :
    (makeDirs p).run d = (mkdirOk p).run d' :=
  (run_makeDirs_noEntry hn hp h).trans (run_bind_ok hparent)

theorem run_makeDirs_child (h : (makeDirs p).run d = (.ok u, d')) (hp : p.Room k)
    (hn : IsEntry name) (hr : (p.child name).Room k') :
    (makeDirs (p.child name)).run d = (mkdirOk (p.child name)).run d' := by
  rcases makeDirs_eq_ok h with ⟨l, es, hf, rfl⟩ | hm
  · have he := hf.entry hn hr
    cases hl : es.lookup name with
    | none =>
      rw [entrySpot, hl] at he
      rw [run_makeDirs_absent he, run_mkdirOk_absent he]
    | some n =>
      rw [entrySpot, hl] at he
      rw [run_makeDirs_refused (by decide) (run_mkdir_found he), mkdirOk,
        run_tryCatch_error (run_mkdir_found he)]
  · have hnames : (p.child name).names ≠ [] := by
      rw [Path.names_child p hn.single]
      simp
    have hparent : (makeDirs (p.child name).parent).run d = (.ok u, d') := by
      rw [Path.parent_child p hn.single]
      exact h
    exact run_makeDirs_parent hr.noNul hnames (locate_child_of_missing hm hp hn hr) hparent

/-! ### Temporary files -/

/-- The name that a temporary file gets where none is there. -/
def tempName : String := ".recipe_0.tmp"

theorem isEntry_tempName : IsEntry tempName :=
  ⟨⟨by simp [tempName], by decide, by decide⟩, ⟨by decide, by decide⟩, by decide⟩

theorem freshName_of_not_mem {names : List String} (h : tempName ∉ names) :
    freshName names = tempName := by
  have h0 : ".recipe_" ++ Decimal.intText ((0 : Nat) : Int) ++ ".tmp" = tempName := by decide
  rw [freshName, List.range_succ_eq_map, List.map_cons, List.find?_cons_of_pos]
  · rw [h0, Option.getD_some]
  · rw [h0]
    simpa using h

/-- A name that a temporary file can get. Without a free name it would have none. -/
def IsTempName (name : String) : Prop :=
  name = "" ∨ ∃ n : Nat, name = ".recipe_" ++ Decimal.intText (n : Int) ++ ".tmp"

theorem freshName_cases (names : List String) :
    freshName names = "" ∨
      (∃ n : Nat, freshName names = ".recipe_" ++ Decimal.intText (n : Int) ++ ".tmp") ∧
        freshName names ∉ names := by
  rw [freshName]
  cases hf : ((List.range (names.length + 1)).map fun (n : Nat) =>
      ".recipe_" ++ Decimal.intText (n : Int) ++ ".tmp").find? (!names.contains ·) with
  | none => exact .inl rfl
  | some name =>
    obtain ⟨n, -, rfl⟩ := List.mem_map.1 (List.mem_of_find?_eq_some hf)
    have hfree := List.find?_some hf
    rw [Bool.not_eq_true', ← Bool.not_eq_true, List.contains_iff_mem] at hfree
    exact .inr ⟨⟨n, rfl⟩, hfree⟩

theorem isTempName_freshName (names : List String) : IsTempName (freshName names) :=
  (freshName_cases names).imp_right And.left

theorem IsTempName.cases (h : IsTempName name) :
    name = "" ∨ (Path.IsSingle name ∧ ∃ cs, name.toList = '.' :: 'r' :: cs) := by
  rcases h with rfl | ⟨n, rfl⟩
  · exact .inl rfl
  · have hchars : (".recipe_" ++ Decimal.intText (n : Int) ++ ".tmp").toList =
        ['.', 'r', 'e', 'c', 'i', 'p', 'e', '_'] ++ (Nat.toDigits 10 n ++ ['.', 't', 'm', 'p']) := by
      rw [String.toList_append, String.toList_append, Decimal.toList_intText_nat, List.append_assoc]
      rfl
    have hdigits : ∀ c ∈ Nat.toDigits 10 n, c ≠ '/' := by
      rintro c hc rfl
      have := List.all_eq_true.1 (Decimal.all_isDigit_toDigits n) _ hc
      cases this
    refine .inr ⟨⟨fun c hc => ?_, fun he => ?_, fun he => ?_⟩, _, hchars⟩
    · rw [hchars, List.mem_append, List.mem_append] at hc
      rcases hc with hc | hc | hc
      · rintro rfl
        revert hc
        decide
      · exact hdigits c hc
      · rintro rfl
        revert hc
        decide
    · rw [he] at hchars
      cases hchars
    · rw [he] at hchars
      cases hchars

theorem createTemp_eq_ok {temp : Path} (h : (createTemp p troubles).run d = (.ok temp, d')) :
    ∃ name, IsTempName name ∧ temp = (d.absolute p).child name := by
  rw [createTemp, run_bind_ok (run_get d)] at h
  obtain ⟨es, d₁, -, h⟩ := run_bind_eq_ok.1 h
  obtain ⟨_, d₂, -, h⟩ := run_bind_eq_ok.1 h
  cases h
  exact ⟨_, isTempName_freshName _, rfl⟩

theorem run_createTemp (h : d.Finds (d.absolute p) (.found l (.dir es)))
    (hr : ((d.absolute p).child tempName).Room k) (ht : tempName ∉ es.map (·.1)) :
    (createTemp p).run d = (.ok ((d.absolute p).child tempName),
      d.setAt (l ++ [tempName]) (some (.file 0o600 (.bytes .empty)))) := by
  have hnames : tempName ∉ (sortByKey es).map (·.1) := by
    rwa [((sortByKey_perm es).map _).mem_iff]
  have habsent := h.entry_none isEntry_tempName hr (lookup_eq_none.2 ht)
  rw [createTemp, run_bind_ok (run_get d), run_bind_ok (run_list h)]
  change (do write ((d.absolute p).child (freshName _)) (.bytes .empty) 0o600
             return ((d.absolute p).child (freshName _)) : DiskM Path).run d = _
  rw [freshName_of_not_mem hnames, run_bind_ok (run_write_absent habsent _ _)]
  rfl

theorem run_chmod {mode' : Nat} {c : Content} (h : d.Finds p (.found place (.file mode' c)))
    (mode : Nat) : (chmod p mode).run d = (.ok (), d.setAt place (some (.file mode c))) := by
  rw [chmod, run_find_bind h]
  rfl

theorem Finds.run_writeText (h : d.Finds p (.found l (.dir es))) (hn : IsEntry name)
    (hr : (p.child name).Room k) (hes : ∀ n, es.lookup name = some n → ∃ mode c, n = .file mode c)
    (text : String) :
    d.root.NoDirAt (l ++ [name]) ∧ ∃ mode,
      (writeText (p.child name) text).run d =
        (.ok (), d.setAt (l ++ [name]) (some (.file mode (.bytes text.toUTF8)))) ∧
      (d.setAt (l ++ [name]) (some (.file mode (.bytes text.toUTF8)))).Finds p
        (.found l (.dir (put name (.file mode (.bytes text.toUTF8)) es))) := by
  cases hl : es.lookup name with
  | none =>
    have habsent := h.entry_none hn hr hl
    have hno := FileSpot.noDirAt (.inl habsent)
    exact ⟨hno, _, run_write_absent habsent _ _,
      h.setAt_below hno (List.cons_ne_nil _ _) (Node.set_entry es name _)⟩
  | some n =>
    obtain ⟨mode, c, rfl⟩ := hes n hl
    have hfound := h.entry_some hn hr hl
    have hno := FileSpot.noDirAt (.inr ⟨mode, c, hfound⟩)
    exact ⟨hno, mode, run_write_found hfound _ _,
      h.setAt_below hno (List.cons_ne_nil _ _) (Node.set_entry es name _)⟩

/-- A file is moved to a place that is free or holds a file. The held file must be neither. -/
theorem run_rename {mode : Nat} {c : Content} {source target : List String}
    (hs : d.Finds p (.found source (.file mode c))) (ht : d.FileSpot q target) (hne : source ≠ target)
    (hsource : d.held ≠ some source) (htarget : ∀ l, d.held = some l → ¬ target <+: l) :
    (rename p q).run d =
      (.ok (), (d.setAt source none).setAt target (some (.file mode c))) := by
  have hheld : d.held.filter (!target.isPrefixOf ·) = d.held := by
    cases hl : d.held with
    | none => rfl
    | some l => simp [Option.filter, htarget l hl]
  have hmove : (do
      if source ≠ target then release target
      setNode source none
      setNode target (some (.file mode c))
      modify fun d => { d with held := if d.held = some source then some target else d.held }
      : DiskM Unit).run d = (.ok (), (d.setAt source none).setAt target (some (.file mode c))) := by
    rw [if_pos hne]
    change ((.ok (), _) : Except DiskFault Unit × Disk) = _
    simp only [setAt, hheld, if_neg hsource]
  rw [rename, run_bind_ok (run_get d)]
  rcases ht with ht | ⟨mode', c', ht⟩
  · simp only [hs.locate, ht.locate]
    exact hmove
  · simp only [hs.locate, ht.locate]
    exact hmove

end Provision.Disk
