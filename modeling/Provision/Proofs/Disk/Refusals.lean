import Provision.Failure
import Provision.Proofs.Disk.Bytes
import Provision.Proofs.Disk.Sanity

/-!
# What the system refuses

An operation on paths without null bytes fails with refusals of the system only (`OnlyRefuses`), and so does making a
temporary file in a directory that has been made (`refusal_of_createTemp`). This is what a fault of the store can
stand for: a null byte is no refusal, it is not even handed to the system.
-/

namespace Provision.Disk

variable {d d' : Disk} {p q : Path} {name : String} {e : DiskFault} {α : Type} {u : Unit}
  {refuses : Disk → Option Refusal} {troubles : Troubles}

/-- Every failure is a refusal of the system. -/
abbrev OnlyRefuses (x : DiskM α) : Prop :=
  FailsWith (fun e => e.isRefusal = true) x

/-- The operation fails on this disk. -/
def Fails (x : DiskM α) (d : Disk) : Prop :=
  ∃ e d', x.run d = (.error e, d')

theorem not_fails {x : DiskM α} {a : α} (h : x.run d = (.ok a, d')) : ¬ Fails x d := by
  rintro ⟨e, d₁, hfails⟩
  cases h.symm.trans hfails

/-- The system refuses even to say whether there is anything. -/
def TooLong (d : Disk) (p : Path) : Prop :=
  p.hasNul = false ∧ ¬ d.Takes p

theorem takes_of_not_tooLong (h : ¬ d.TooLong p) (hn : p.hasNul = false) : d.Takes p :=
  not_not.1 fun htakes => h ⟨hn, htakes⟩

theorem onlyRefuses_refuse (e : Errno) (p : Path) : OnlyRefuses (refuse e p : DiskM α) := by
  intro d f d' h
  cases h
  rfl

theorem onlyRefuses_setNode (l : List String) (n : Option Node) : OnlyRefuses (setNode l n) := by
  intro d f d' h
  cases h

theorem onlyRefuses_find (hn : p.hasNul = false) : OnlyRefuses (find p refuses) := by
  intro d f d' h
  rw [run_find_refuses hn] at h
  split at h
  · cases h
    rfl
  · rw [run_find_eq hn] at h
    split at h <;> cases h
    rfl

theorem onlyRefuses_fill (l : List String) (mode : Nat) (c : Content) (breaks : Disk → Option (Nat × Errno)) :
    OnlyRefuses (fill l mode c breaks) := by
  intro d f d' h
  rw [fill, run_bind_ok (run_get d)] at h
  split at h <;> cases h
  rfl

theorem onlyRefuses_write (hn : p.hasNul = false) (c : Content) (mode : Nat) :
    OnlyRefuses (write p c mode troubles) := by
  refine (onlyRefuses_find hn).bind fun spot => ?_
  rcases spot with ⟨l, _ | _⟩ | l
  · exact onlyRefuses_fill _ _ _ _
  · exact onlyRefuses_refuse _ _
  · exact onlyRefuses_fill _ _ _ _

theorem onlyRefuses_list (hn : p.hasNul = false) : OnlyRefuses (list p troubles) := by
  refine (onlyRefuses_find hn).bind fun spot => ?_
  rcases spot with ⟨l, _ | _⟩ | l
  · exact onlyRefuses_refuse _ _
  · exact .pure _
  · exact onlyRefuses_refuse _ _

theorem onlyRefuses_read (hn : p.hasNul = false) : OnlyRefuses (read p troubles) := by
  refine (onlyRefuses_find hn).bind fun spot => ?_
  rcases spot with ⟨l, _ | _⟩ | l
  · exact .pure _
  · exact onlyRefuses_refuse _ _
  · exact onlyRefuses_refuse _ _

theorem onlyRefuses_unlink (hn : p.hasNul = false) : OnlyRefuses (unlink p troubles) := by
  refine (onlyRefuses_find hn).bind fun spot => ?_
  rcases spot with ⟨l, _ | _⟩ | l
  · intro d f d' h
    cases h
  · exact onlyRefuses_refuse _ _
  · exact .pure _

theorem onlyRefuses_rename (p q : Path) : OnlyRefuses (rename p q troubles) := by
  intro d f d' h
  rw [rename, run_bind_ok (run_get d)] at h
  split at h
  · cases h
    rfl
  · split at h
    case h_1 | h_2 => split at h <;> cases h
    all_goals
      cases h
      rfl

theorem run_write_nul (hn : p.hasNul = true) (c : Content) (mode : Nat) :
    (write p c mode troubles).run d = (.error .nulByte, d) := by
  refine run_bind_error ?_
  rw [find, hn]
  rfl

/-! ### Looking at a path -/

/-- What the system tells without a refusal is what it tells where it has no troubles. -/
theorem probe_unrefused {o : Option Node} (h : (probe p troubles).run d = (.ok o, d')) :
    (probe p).run d = (.ok o, d') := by
  cases hn : p.hasNul with
  | true =>
    rw [probe, hn] at h ⊢
    exact h
  | false =>
    rw [run_probe_refuses hn] at h
    split at h
    · cases h
    · exact h

theorem isFile_unrefused {b : Bool} (h : (isFile p troubles).run d = (.ok b, d')) :
    (isFile p).run d = (.ok b, d') := by
  obtain ⟨o, d₁, hprobe, h⟩ := run_bind_eq_ok.1 h
  exact (run_bind_ok (probe_unrefused hprobe)).trans h

theorem noNul_of_isFile (h : (isFile p troubles).run d = (.ok true, d')) : p.hasNul = false := by
  cases hn : p.hasNul with
  | true =>
    rw [isFile, probe, hn] at h
    cases h
  | false => rfl

theorem run_probe_tooLong (h : d.TooLong p) : (probe p).run d = (.error (.refused .nameTooLong p.text none), d) := by
  rw [run_probe_eq h.1, shown_eq_tooLong.1 (not_not.1 h.2)]

theorem run_isDir_unless_tooLong (h : ¬ d.TooLong p) :
    ∃ b, (isDir p).run d = (.ok b, d) ∧ (b = true ↔ ∃ l es, d.Finds p (.found l (.dir es))) := by
  cases hn : p.hasNul with
  | true =>
    refine ⟨false, run_isDir_nul hn, iff_of_false Bool.false_ne_true ?_⟩
    rintro ⟨l, es, hf⟩
    cases hn.symm.trans hf.noNul
  | false =>
    obtain ⟨b, hrun, hb⟩ := run_isDir_of_takes hn (not_not.1 fun htakes => h ⟨hn, htakes⟩)
    refine ⟨b, hrun, hb.trans ⟨?_, ?_⟩⟩
    · rintro ⟨es, hes⟩
      obtain ⟨l, hf⟩ := finds_of_shown hn hes
      exact ⟨l, es, hf⟩
    · rintro ⟨l, es, hf⟩
      exact ⟨es, hf.shown⟩

theorem hasNul_child (p : Path) (hs : Path.IsSingle name) :
    (p.child name).hasNul = (p.hasNul || name.toList.contains '\x00') := by
  rw [Path.hasNul, Path.names_child p hs, List.any_append, List.any_cons, List.any_nil, Bool.or_false]
  rfl

theorem IsTempName.noNul (h : IsTempName name) : name.toList.contains '\x00' = false := by
  rcases h with rfl | ⟨n, rfl⟩
  · rfl
  · have hdigits : '\x00' ∉ Nat.toDigits 10 n := fun hmem => by
      have hdigit := List.all_eq_true.1 (Decimal.all_isDigit_toDigits n) _ hmem
      cases hdigit
    rw [List.contains_eq_mem, decide_eq_false_iff_not, String.toList_append, String.toList_append,
      Decimal.toList_intText_nat, List.mem_append, List.mem_append, not_or, not_or]
    exact ⟨⟨by decide, hdigits⟩, by decide⟩

theorem IsTempName.noNul_child (h : IsTempName name) (hp : p.hasNul = false) : (p.child name).hasNul = false := by
  rcases h.cases with rfl | ⟨hs, -⟩
  · rwa [Path.child_empty]
  · rw [hasNul_child p hs, hp, h.noNul]
    rfl

theorem refusal_of_createTemp (hn : (d.absolute p).hasNul = false)
    (h : (createTemp p troubles).run d = (.error e, d')) :
    e.isRefusal = true := by
  rw [createTemp, run_bind_ok (run_get d)] at h
  rcases hlist : (list (d.absolute p)).run d with ⟨f | es, d₁⟩
  · rw [run_bind_error hlist] at h
    cases h
    exact onlyRefuses_list hn _ _ _ hlist
  · rw [run_bind_ok hlist] at h
    have htemp := (isTempName_freshName (es.map (·.1))).noNul_child hn
    exact ((onlyRefuses_write htemp _ _).bind fun _ => .pure _) _ _ _ h

theorem mem_collapse {x : String} {names : List String} (h : x ∈ Path.collapse names) : x ∈ names := by
  have hall : ∀ done : List String,
      x ∈ names.foldl (fun done n => if n = ".." then done.dropLast else done ++ [n]) done →
        x ∈ done ∨ x ∈ names := by
    clear h
    induction names with
    | nil => exact fun _ h => .inl h
    | cons n names ih =>
      intro done h
      rw [List.foldl_cons] at h
      rcases ih _ h with h | h
      · split at h
        · exact .inl (List.dropLast_subset _ h)
        · rcases List.mem_append.1 h with h | h
          · exact .inl h
          · exact .inr (List.mem_cons.2 (.inl (List.mem_singleton.1 h)))
      · exact .inr (List.mem_cons_of_mem _ h)
  exact (hall [] h).resolve_left List.not_mem_nil

theorem isSome_of_makeDirs (h : (makeDirs p troubles).run d = (.ok u, d')) :
    (d.root.get? (d.start p)).isSome = true := by
  have hsame : Preserves (fun d d' => d.root.get? (d.start p) = none → d' = d) (makeDirs p troubles) := by
    refine preserves_makeDirs (fun _ _ => rfl) (fun h h' hlost => ?_) fun q hanchor _ d hlost => ?_
    · obtain rfl := h hlost
      exact h' hlost
    · rcases mkdir_cases q d with h | ⟨l, hs, -⟩
      · exact h
      · have hstart : d.start q = d.start p := by rw [start, start, Path.isAbsolute, Path.isAbsolute, hanchor]
        have hsome := isSome_of_walk hs.leads
        rw [hstart, hlost] at hsome
        cases hsome
  obtain ⟨l, es, hfound⟩ := finds_of_makeDirs h
  cases hget : d.root.get? (d.start p) with
  | some n => rfl
  | none =>
    obtain rfl := hsame.of_run h hget
    have hsome := isSome_of_walk hfound.leads
    rw [hget] at hsome
    cases hsome

/-- Where a directory could be made below, the absolute path has no null byte: no name of an entry has one. -/
theorem noNul_absolute (hs : Path.IsSingle name) (hd : d.root.IsTree)
    (h : (makeDirs (p.child name) troubles).run d = (.ok u, d')) : (d'.absolute p).hasNul = false := by
  obtain ⟨l, es, hfound⟩ := finds_of_makeDirs h
  have hnul := Path.noNul_of_child hs hfound.noNul
  have hcwd : d'.start p = d.start p := start_of_cwd ((keeps_makeDirs (l := []) (p.child name)).of_run h).cwd p
  have hstart := isSome_of_makeDirs h
  rw [Path.start_child d p hs] at hstart
  rw [Path.hasNul, List.any_eq_false] at hnul ⊢
  intro x hx
  have hmem : x ∈ d.start p ++ p.names := hcwd ▸ mem_collapse hx
  rcases List.mem_append.1 hmem with hx | hx
  · rw [(hd.isEntry_of_mem hstart hx).noNul]
    exact Bool.false_ne_true
  · exact hnul x hx

end Provision.Disk
