import Provision.Proofs.Disk.Walk
import Provision.Proofs.Outcome

/-!
# What operations on a disk do

Each operation is told by where its path leads (`Finds`): what it answers, and the one place at which it
changes the tree (`setAt`). Whether it is refused or not, it leaves the disk or makes that one change
(`mkdir_cases`, `write_cases`, `unlink_cases`, `removeTree_cases`). An operation on a file leaves the disk where it
is refused (`AllOrNothing`). The operations that put a file somewhere have one effect in common (`PutsFile`), and
such an effect leaves every directory and every other file as it is (`Keeps`).
-/

namespace Provision.Disk

variable {d d' d'' : Disk} {p : Path} {l place : List String} {spot : Spot} {refuses : Disk → Option Refusal}
  {troubles : Troubles}

/-- The system takes the path, and it leads to the spot. -/
structure Finds (d : Disk) (p : Path) (spot : Spot) : Prop where
  noNul : p.hasNul = false
  short : p.text.utf8ByteSize < pathLimit
  leads : walk d.root (d.start p) p.names = .ok spot

theorem Finds.locate (h : d.Finds p spot) : d.locate p = .ok spot := by
  rw [Disk.locate, if_neg (Nat.not_le.2 h.short), h.leads]

theorem walk_of_locate (h : d.locate p = .ok spot) : walk d.root (d.start p) p.names = .ok spot := by
  rw [locate] at h
  split at h
  · cases h
  · exact h

theorem finds_of_locate (hn : p.hasNul = false) (h : d.locate p = .ok spot) : d.Finds p spot := by
  rw [Disk.locate] at h
  split at h
  · cases h
  · rename_i hs
    exact ⟨hn, Nat.lt_of_not_le hs, h⟩

theorem Finds.unique {spot' : Spot} (h : d.Finds p spot) (h' : d.Finds p spot') : spot = spot' :=
  Except.ok.inj (h.leads.symm.trans h'.leads)

/-- The disk with a node put or removed at a place. -/
def setAt (d : Disk) (place : List String) (m : Option Node) : Disk :=
  { d with root := d.root.set m place }

@[simp] theorem setAt_root (d : Disk) (place : List String) (m : Option Node) :
    (d.setAt place m).root = d.root.set m place := rfl

@[simp] theorem setAt_cwd (d : Disk) (place : List String) (m : Option Node) :
    (d.setAt place m).cwd = d.cwd := rfl

@[simp] theorem setAt_held (d : Disk) (place : List String) (m : Option Node) :
    (d.setAt place m).held = d.held := rfl

@[simp] theorem start_setAt (d : Disk) (place : List String) (m : Option Node) (p : Path) :
    (d.setAt place m).start p = d.start p := rfl

@[simp] theorem run_setNode (place : List String) (m : Option Node) (d : Disk) :
    (setNode place m).run d = (.ok (), d.setAt place m) := rfl

theorem run_find_eq (hn : p.hasNul = false) (d : Disk) :
    (find p).run d =
      match d.locate p with
      | .ok spot => (.ok spot, d)
      | .error e => (.error (.refused e p.text none), d) := by
  rw [find, hn]
  change (match d.locate p with
    | .ok spot => pure spot
    | .error e => refuse e p : DiskM Spot).run d = _
  split <;> rfl

theorem run_find (h : d.Finds p spot) : (find p).run d = (.ok spot, d) := by
  rw [run_find_eq h.noNul, h.locate]

theorem run_find_refuses (hn : p.hasNul = false) (refuses : Disk → Option Refusal) (d : Disk) :
    (find p refuses).run d =
      match refuses d with
      | some r => (.error (.refused r.errno r.path none), d)
      | none => (find p).run d := by
  rw [find, find, hn]
  change (match refuses d with
    | some r => throw (.refused r.errno r.path none)
    | none => get >>= fun d => match d.locate p with
      | .ok spot => pure spot
      | .error e => refuse e p : DiskM Spot).run d = _
  cases refuses d <;> rfl

theorem run_find_nul (hn : p.hasNul = true) (refuses : Disk → Option Refusal) (d : Disk) :
    (find p refuses).run d = (.error .nulByte, d) := by
  rw [find, hn]
  rfl

theorem finds_of_run (h : (find p refuses).run d = (.ok spot, d')) : d = d' ∧ d.Finds p spot := by
  cases hn : p.hasNul with
  | true => rw [run_find_nul hn] at h; cases h
  | false =>
    rw [run_find_refuses hn] at h
    split at h
    · cases h
    · rw [run_find_eq hn] at h
      split at h
      · rename_i hl; cases h; exact ⟨rfl, finds_of_locate hn hl⟩
      · cases h

theorem run_find_bind {α : Type} (h : d.Finds p spot) (f : Spot → DiskM α) :
    (find p >>= f).run d = (f spot).run d :=
  run_bind_ok (run_find h)

theorem find_bind_eq_ok {α : Type} {f : Spot → DiskM α} {a : α}
    (h : (find p refuses >>= f).run d = (.ok a, d')) :
    ∃ spot, d.Finds p spot ∧ (f spot).run d = (.ok a, d') := by
  obtain ⟨spot, d₁, h1, h2⟩ := run_bind_eq_ok.1 h
  obtain ⟨rfl, hf⟩ := finds_of_run h1
  exact ⟨spot, hf, h2⟩

theorem run_probe_eq (hn : p.hasNul = false) (d : Disk) :
    (probe p).run d =
      match d.locate p with
      | .ok (.found _ n) => (.ok (some n), d)
      | .ok (.absent _) => (.ok none, d)
      | .error .nameTooLong => (.error (.refused .nameTooLong p.text none), d)
      | .error _ => (.ok none, d) := by
  rw [probe, hn]
  change (match d.locate p with
    | .ok (.found _ n) => pure (some n)
    | .ok (.absent _) => pure none
    | .error .nameTooLong => refuse .nameTooLong p
    | .error _ => pure none : DiskM (Option Node)).run d = _
  split <;> rfl

theorem run_probe_refuses (hn : p.hasNul = false) (troubles : Troubles) (d : Disk) :
    (probe p troubles).run d =
      match troubles.refuses .look p d with
      | some r => (.error (.refused r.errno r.path none), d)
      | none => (probe p).run d := by
  rw [probe, probe, hn]
  change (match troubles.refuses .look p d with
    | some r => throw (.refused r.errno r.path none)
    | none => get >>= fun d => match d.locate p with
      | .ok (.found _ n) => pure (some n)
      | .ok (.absent _) => pure none
      | .error .nameTooLong => refuse .nameTooLong p
      | .error _ => pure none : DiskM (Option Node)).run d = _
  cases troubles.refuses .look p d <;> rfl

theorem run_probe_found {n : Node} (h : d.Finds p (.found l n)) :
    (probe p).run d = (.ok (some n), d) := by
  rw [run_probe_eq h.noNul, h.locate]

theorem run_probe_absent (h : d.Finds p (.absent l)) : (probe p).run d = (.ok none, d) := by
  rw [run_probe_eq h.noNul, h.locate]

theorem short_of_probe {o : Option Node} (hn : p.hasNul = false) (h : (probe p).run d = (.ok o, d')) :
    p.text.utf8ByteSize < pathLimit := by
  by_contra hlong
  rw [run_probe_eq hn, Disk.locate, if_pos (Nat.not_lt.1 hlong)] at h
  cases h

theorem readOnly_probe (p : Path) : ReadOnly (probe p troubles) := by
  rw [probe]
  split
  · exact .pure _
  · refine .bind (fun _ => rfl) fun d => ?_
    split
    · exact .throw _
    · refine .bind (fun _ => rfl) fun d => ?_
      split
      · exact .pure _
      · exact .pure _
      · exact .throw _
      · exact .pure _

theorem readOnly_find (p : Path) : ReadOnly (find p refuses) := by
  intro d
  cases hn : p.hasNul with
  | true => rw [run_find_nul hn]
  | false =>
    rw [run_find_refuses hn]
    split
    · rfl
    · rw [run_find_eq hn]
      split <;> rfl

theorem readOnly_isDir (p : Path) : ReadOnly (isDir p troubles) :=
  (readOnly_probe p).bind fun _ => .pure _

theorem readOnly_isFile (p : Path) : ReadOnly (isFile p troubles) :=
  (readOnly_probe p).bind fun _ => .pure _

theorem readOnly_pathExists (p : Path) : ReadOnly (pathExists p troubles) :=
  (readOnly_probe p).bind fun _ => .pure _

theorem readOnly_list (p : Path) : ReadOnly (list p troubles) := by
  refine (readOnly_find p).bind fun spot => ?_
  split
  · exact .pure _
  · exact .throw _
  · exact .throw _

theorem readOnly_read (p : Path) : ReadOnly (read p troubles) := by
  refine (readOnly_find p).bind fun spot => ?_
  split
  · exact .pure _
  · exact .throw _
  · exact .throw _

theorem readOnly_members (p : Path) : ReadOnly (members p troubles) := by
  refine (readOnly_find p).bind fun spot => ?_
  split
  · exact .pure _
  · exact .throw _

theorem run_isDir_found {n : Node} (h : d.Finds p (.found l n)) :
    (isDir p).run d = (.ok n.isDir, d) := by
  rw [isDir, run_bind_ok (run_probe_found h)]
  rfl

theorem run_isDir_absent (h : d.Finds p (.absent l)) : (isDir p).run d = (.ok false, d) := by
  rw [isDir, run_bind_ok (run_probe_absent h)]
  rfl

theorem run_isFile_found {n : Node} (h : d.Finds p (.found l n)) :
    (isFile p).run d = (.ok n.isFile, d) := by
  rw [isFile, run_bind_ok (run_probe_found h)]
  rfl

theorem run_read {mode : Nat} {c : Content} (h : d.Finds p (.found l (.file mode c))) :
    (read p).run d = (.ok c, d) := by
  rw [read, run_find_bind h]
  rfl

theorem run_list {es : List (String × Node)} (h : d.Finds p (.found l (.dir es))) :
    (list p).run d = (.ok (sortByKey es), d) := by
  rw [list, run_find_bind h]
  rfl

theorem read_eq_ok {c : Content} (h : (read p troubles).run d = (.ok c, d')) :
    d = d' ∧ ∃ l mode, d.Finds p (.found l (.file mode c)) := by
  obtain ⟨spot, hf, h⟩ := find_bind_eq_ok h
  split at h
  · cases h; exact ⟨rfl, _, _, hf⟩
  · cases h
  · cases h

theorem list_eq_ok {es : List (String × Node)} (h : (list p troubles).run d = (.ok es, d')) :
    d = d' ∧ ∃ l es₀, d.Finds p (.found l (.dir es₀)) ∧ es = sortByKey es₀ := by
  obtain ⟨spot, hf, h⟩ := find_bind_eq_ok h
  split at h
  · cases h; exact ⟨rfl, _, _, hf, rfl⟩
  · cases h
  · cases h

/-- An operation on a path that leads nowhere leaves the disk; else it goes on from the spot. -/
theorem run_find_cases {α : Type} (f : Spot → DiskM α) (p : Path) (d : Disk) :
    ((find p refuses >>= f).run d).2 = d ∨
      ∃ spot, d.Finds p spot ∧ (find p refuses >>= f).run d = (f spot).run d := by
  rcases hf : (find p refuses).run d with ⟨e | spot, d₁⟩
  · obtain rfl := (readOnly_find p).run_eq hf
    exact .inl (by rw [run_bind_error hf])
  · obtain ⟨rfl, hs⟩ := finds_of_run hf
    exact .inr ⟨spot, hs, run_bind_ok hf⟩

/-! ### Putting a file somewhere -/

/-- The path leads to a file, or to a free name, at the place. -/
def FileSpot (d : Disk) (p : Path) (place : List String) : Prop :=
  d.Finds p (.absent place) ∨ ∃ mode c, d.Finds p (.found place (.file mode c))

/-- All of a content or, where the system breaks off a write, a beginning of it. -/
def Begins (troubles : Troubles) (c' c : Content) : Prop :=
  c' = c ∨ ∃ p d n e, troubles.breaks p d = some (n, e) ∧ c' = c.beginning n

/-- A file is put where the path leads. -/
structure PutsFile (p : Path) (place : List String) (mode : Nat) (c : Content) (d d' : Disk) :
    Prop where
  spot : d.FileSpot p place
  eq : d' = d.setAt place (some (.file mode c))

theorem run_write_absent (h : d.Finds p (.absent place)) (c : Content) (mode : Nat) :
    (write p c mode).run d = (.ok (), d.setAt place (some (.file mode c))) := by
  rw [write, run_find_bind h]
  rfl

theorem run_write_found {mode' : Nat} {c' : Content}
    (h : d.Finds p (.found place (.file mode' c'))) (c : Content) (mode : Nat) :
    (write p c mode).run d = (.ok (), d.setAt place (some (.file mode' c))) := by
  rw [write, run_find_bind h]
  rfl

theorem run_fill_cases (place : List String) (mode : Nat) (c : Content) (breaks : Disk → Option (Nat × Errno))
    (d : Disk) :
    (fill place mode c breaks).run d = (.ok (), d.setAt place (some (.file mode c))) ∨
      ∃ n e, breaks d = some (n, e) ∧ (fill place mode c breaks).run d =
        (.error (.refused e none none), d.setAt place (some (.file mode (c.beginning n)))) := by
  rw [fill, run_bind_ok (run_get d)]
  split
  · exact .inl rfl
  · rename_i n e hbreaks
    exact .inr ⟨n, e, hbreaks, rfl⟩

theorem putsFile_of_write {c : Content} {mode : Nat} {u : Unit}
    (h : (write p c mode troubles).run d = (.ok u, d')) :
    ∃ place mode', PutsFile p place mode' c d d' := by
  have hfill : ∀ {place : List String} {mode' : Nat}, (fill place mode' c (troubles.breaks p)).run d = (.ok u, d') →
      d' = d.setAt place (some (.file mode' c)) := by
    intro place mode' h
    rcases run_fill_cases place mode' c (troubles.breaks p) d with hf | ⟨n, e, -, hf⟩ <;> cases hf.symm.trans h
    rfl
  obtain ⟨spot, hf, h⟩ := find_bind_eq_ok h
  split at h
  · cases h
  · exact ⟨_, _, .inr ⟨_, _, hf⟩, hfill h⟩
  · exact ⟨_, _, .inl hf, hfill h⟩

/-- Writing leaves the disk, or puts a file where the path leads, with all of the content or with its beginning. -/
theorem write_cases (p : Path) (c : Content) (mode : Nat) (d : Disk) :
    ((write p c mode troubles).run d).2 = d ∨
      ∃ place mode' c', Begins troubles c' c ∧ PutsFile p place mode' c' d ((write p c mode troubles).run d).2 := by
  have hfill : ∀ {place : List String} (mode' : Nat), d.FileSpot p place → ∃ c', Begins troubles c' c ∧
      PutsFile p place mode' c' d ((fill place mode' c (troubles.breaks p)).run d).2 := by
    intro place mode' hs
    rcases run_fill_cases place mode' c (troubles.breaks p) d with hf | ⟨n, e, hbreaks, hf⟩ <;> rw [hf]
    · exact ⟨c, .inl rfl, hs, rfl⟩
    · exact ⟨_, .inr ⟨p, d, n, e, hbreaks, rfl⟩, hs, rfl⟩
  rcases run_find_cases _ p d with h | ⟨spot, hs, h⟩
  · exact .inl h
  · rw [write, h]
    match spot with
    | .absent place => exact .inr ⟨place, mode, hfill mode (.inl hs)⟩
    | .found place (.file mode' c') => exact .inr ⟨place, mode', hfill mode' (.inr ⟨mode', c', hs⟩)⟩
    | .found place (.dir es) => exact .inl rfl

theorem chmod_eq_ok {mode : Nat} {u : Unit} (h : (chmod p mode troubles).run d = (.ok u, d')) :
    d' = d ∨ ∃ place mode₀ c, d.Finds p (.found place (.file mode₀ c)) ∧
      d' = d.setAt place (some (.file mode c)) := by
  obtain ⟨spot, hf, h⟩ := find_bind_eq_ok h
  split at h
  · cases h; exact .inr ⟨_, _, _, hf, rfl⟩
  · cases h; exact .inl rfl
  · cases h

theorem run_putCopy_cases (place : List String) (old mode : Nat) (c : Content) (source target : Path) (d : Disk) :
    (putCopy place old mode c source target troubles).run d = (.ok (), d.setAt place (some (.file mode c))) ∨
      ∃ mode' c' e, Begins troubles c' c ∧
        (putCopy place old mode c source target troubles).run d =
          (.error e, d.setAt place (some (.file mode' c'))) := by
  rw [putCopy, run_bind_ok (run_get d), run_bind_ok (run_get d)]
  split
  · rename_i n e hbreaks
    exact .inr ⟨_, _, _, .inr ⟨target, d, n, e, hbreaks, rfl⟩, rfl⟩
  · exact .inr ⟨_, _, _, .inl rfl, rfl⟩
  · exact .inl rfl

/-- A copy goes to its target, or below it where that is a directory. It may be left with a beginning of the content. -/
theorem copyFile_cases (source target : Path) (d : Disk) :
    (∃ e, (copyFile source target troubles).run d = (.error e, d)) ∨
      ∃ target' place mode mode' c c' result, (target' = target ∨ target' = target.child source.name) ∧
        (∃ s, d.Finds source (.found s (.file mode c))) ∧ Begins troubles c' c ∧
        (copyFile source target troubles).run d = (result, d.setAt place (some (.file mode' c'))) ∧
        d.FileSpot target' place ∧ (result = .ok () → mode' = mode ∧ c' = c) := by
  have hput : ∀ {target' : Path} {place : List String} {old mode : Nat} {c : Content},
      (target' = target ∨ target' = target.child source.name) → (∃ s, d.Finds source (.found s (.file mode c))) →
      d.FileSpot target' place →
      ∃ target'' place' mode₀ mode' c₀ c' result, (target'' = target ∨ target'' = target.child source.name) ∧
        (∃ s, d.Finds source (.found s (.file mode₀ c₀))) ∧ Begins troubles c' c₀ ∧
        (putCopy place old mode c source target' troubles).run d = (result, d.setAt place' (some (.file mode' c'))) ∧
        d.FileSpot target'' place' ∧ (result = .ok () → mode' = mode₀ ∧ c' = c₀) := by
    intro target' place old mode c htarget hsource hspot
    rcases run_putCopy_cases place old mode c source target' d with h | ⟨mode', c', e, hc, h⟩
    · exact ⟨_, _, _, _, _, _, _, htarget, hsource, .inl rfl, h, hspot, fun _ => ⟨rfl, rfl⟩⟩
    · exact ⟨_, _, _, _, _, _, _, htarget, hsource, hc, h, hspot, nofun⟩
  rw [copyFile]
  rcases hb : (isDir target troubles).run d with ⟨e | b, d₁⟩ <;> obtain rfl := (readOnly_isDir target).run_eq hb
  · exact .inl ⟨e, run_bind_error hb⟩
  rw [run_bind_ok hb]
  have htarget : (if b then target.child source.name else target) = target ∨
      (if b then target.child source.name else target) = target.child source.name := by
    cases b
    · exact .inl rfl
    · exact .inr rfl
  generalize (if b then target.child source.name else target) = target' at htarget
  rcases hs : (find source (troubles.refuses .read source)).run d with ⟨e | spot, d₁⟩
  · obtain rfl := (readOnly_find source).run_eq hs
    exact .inl ⟨e, run_bind_error hs⟩
  obtain ⟨rfl, hsource⟩ := finds_of_run hs
  rw [run_bind_ok hs]
  rcases ht : (find target' (troubles.refuses .write target')).run d with ⟨e | spot', d₁⟩
  · obtain rfl := (readOnly_find target').run_eq ht
    exact .inl ⟨e, run_bind_error ht⟩
  obtain ⟨rfl, hfound⟩ := finds_of_run ht
  rw [run_bind_ok ht]
  split
  · split
    · exact .inl ⟨_, rfl⟩
    · exact .inr (hput htarget ⟨_, hsource⟩ (.inr ⟨_, _, hfound⟩))
  · exact .inr (hput htarget ⟨_, hsource⟩ (.inl hfound))
  · exact .inl ⟨_, rfl⟩
  · exact .inl ⟨_, rfl⟩
  · exact .inl ⟨_, rfl⟩

theorem copyFile_eq_ok {source target : Path} {u : Unit}
    (h : (copyFile source target troubles).run d = (.ok u, d')) :
    ∃ target' place mode c, (target' = target ∨ target' = target.child source.name) ∧
      (∃ s, d.Finds source (.found s (.file mode c))) ∧ PutsFile target' place mode c d d' := by
  rcases copyFile_cases source target d with ⟨e, hrun⟩ |
    ⟨target', place, mode, mode', c, c', result, htarget, hsource, -, hrun, hspot, hall⟩
  · cases hrun.symm.trans h
  · cases hrun.symm.trans h
    obtain ⟨rfl, rfl⟩ := hall rfl
    exact ⟨target', place, _, _, htarget, hsource, hspot, rfl⟩

theorem FileSpot.noDirAt (h : d.FileSpot p place) : d.root.NoDirAt place := by
  rcases h with h | ⟨mode, c, h⟩
  · exact noDirAt_of_absent h.leads
  · exact Node.noDirAt_of_file (get_of_walk h.leads)

theorem FileSpot.get_setAt (h : d.FileSpot p place) (m : Node) :
    (d.setAt place (some m)).root.get? place = some m := by
  rcases h with h | ⟨mode, c, h⟩
  · obtain ⟨l, x, es', rfl, hl, -⟩ := get_of_walk_absent h.leads
    exact Node.get_set_self hl x m
  · exact Node.get_set_of_isSome (by rw [get_of_walk h.leads]; rfl) m

theorem FileSpot.finds (h : d.FileSpot p place) : ∃ spot, d.Finds p spot ∧ spot.place = place := by
  rcases h with h | ⟨mode, c, h⟩
  · exact ⟨_, h, rfl⟩
  · exact ⟨_, h, rfl⟩

/-- Directories, the file at the place and the held file stay. -/
structure Keeps (l : List String) (d d' : Disk) : Prop where
  cwd : d'.cwd = d.cwd
  held : d'.held = d.held
  dirs : Node.KeepsDirs d.root d'.root
  file : ∀ mode c, d.root.get? l = some (.file mode c) → d'.root.get? l = some (.file mode c)

theorem Keeps.refl (l : List String) (d : Disk) : Keeps l d d :=
  ⟨rfl, rfl, .refl _, fun _ _ h => h⟩

theorem Keeps.trans (h : Keeps l d d') (h' : Keeps l d' d'') : Keeps l d d'' :=
  ⟨h'.cwd.trans h.cwd, h'.held.trans h.held, h.dirs.trans h'.dirs,
    fun mode c hl => h'.file mode c (h.file mode c hl)⟩

theorem keeps_setAt (m : Option Node) (h : d.root.NoDirAt place) (hne : place ≠ l) :
    Keeps l d (d.setAt place m) :=
  ⟨rfl, rfl, Node.keepsDirs_set m h, fun _ _ hl => Node.get_file_set m h hl hne⟩

theorem PutsFile.keeps {mode : Nat} {c : Content} (h : PutsFile p place mode c d d')
    (hne : place ≠ l) : Keeps l d d' :=
  h.eq ▸ keeps_setAt _ h.spot.noDirAt hne

theorem Keeps.start (h : Keeps l d d') (p : Path) : d'.start p = d.start p := by
  rw [Disk.start, Disk.start, h.cwd]

theorem Finds.of_keeps {n : Node} (h : d.Finds p spot) (hk : Keeps l d d')
    (hn : d'.root.get? spot.place = some n) : d'.Finds p (.found spot.place n) :=
  ⟨h.noNul, h.short, by rw [hk.start]; exact walk_keepsDirs hk.dirs h.leads hn⟩

/-- The path leads to a file with the content. -/
def HasFile (d : Disk) (p : Path) (place : List String) (c : Content) : Prop :=
  ∃ mode, d.Finds p (.found place (.file mode c))

theorem HasFile.of_keeps {c : Content} (h : d.HasFile p l c) (hk : Keeps l d d') :
    d'.HasFile p l c := by
  obtain ⟨mode, h⟩ := h
  exact ⟨mode, h.of_keeps hk (hk.file mode c (get_of_walk h.leads))⟩

theorem PutsFile.hasFile {mode : Nat} {c : Content} (h : PutsFile p place mode c d d') :
    d'.HasFile p place c := by
  obtain ⟨spot, hs, rfl⟩ := h.spot.finds
  rw [h.eq]
  exact ⟨mode, hs.noNul, hs.short,
    walk_keepsDirs (Node.keepsDirs_set _ h.spot.noDirAt) hs.leads (h.spot.get_setAt _)⟩

/-! ### Making directories -/

theorem keeps_setAt_absent (m : Option Node) (h : d.Finds p (.absent place)) :
    Keeps l d (d.setAt place m) := by
  by_cases hne : place = l
  · subst hne
    refine ⟨rfl, rfl, Node.keepsDirs_set m (FileSpot.noDirAt (.inl h)), fun mode c hl => ?_⟩
    cases (get_absent h.leads).symm.trans hl
  · exact keeps_setAt m (FileSpot.noDirAt (.inl h)) hne

/-- Making a directory leaves the disk, or puts the directory where the path leads to a free name. -/
theorem mkdir_cases (p : Path) (d : Disk) :
    ((mkdir p troubles).run d).2 = d ∨
      ∃ place, d.Finds p (.absent place) ∧ ((mkdir p troubles).run d).2 = d.setAt place (some (.dir [])) := by
  rcases run_find_cases _ p d with h | ⟨spot, hs, h⟩
  · exact .inl h
  · rw [mkdir, h]
    match spot with
    | .found place n => exact .inl rfl
    | .absent place => exact .inr ⟨place, hs, rfl⟩

theorem keeps_mkdir (p : Path) : Preserves (Keeps l) (mkdir p troubles) := by
  intro d
  rcases mkdir_cases p d with h | ⟨place, hs, h⟩
  · rw [h]
    exact .refl l d
  · rw [h]
    exact keeps_setAt_absent _ hs

section

variable {R : Disk → Disk → Prop} (hrefl : ∀ d, R d d)
  (htrans : ∀ {d d' d'' : Disk}, R d d' → R d' d'' → R d d'')

include hrefl htrans

theorem preserves_unlessDir (p : Path) (fault : DiskFault) :
    Preserves R (do if !(← isDir p troubles) then throw fault : DiskM Unit) := by
  refine .bind htrans ((readOnly_isDir p).preserves hrefl) fun b => ?_
  cases b with
  | true => exact .pure hrefl _
  | false => exact .throw hrefl _

theorem preserves_mkdirOk (h : Preserves R (mkdir p troubles)) : Preserves R (mkdirOk p troubles) := by
  refine .tryCatch htrans h fun e => ?_
  split
  · exact preserves_unlessDir hrefl htrans p _
  · exact .throw hrefl _

theorem preserves_makeDirsWithin (depth : Nat)
    (h : ∀ q : Path, q.anchor = p.anchor → q.names <+: p.names → Preserves R (mkdir q troubles)) :
    Preserves R (makeDirsWithin depth p troubles) := by
  induction depth generalizing p with
  | zero => exact preserves_mkdirOk hrefl htrans (h p rfl (List.prefix_refl _))
  | succ depth ih =>
    refine .tryCatch htrans (h p rfl (List.prefix_refl _)) fun e => ?_
    split
    · refine .bind htrans (ih fun q ha hq => h q ha ?_) fun _ =>
        preserves_mkdirOk hrefl htrans (h p rfl (List.prefix_refl _))
      exact hq.trans (List.dropLast_prefix _)
    · exact preserves_unlessDir hrefl htrans p _
    · exact .throw hrefl _

theorem preserves_makeDirs
    (h : ∀ q : Path, q.anchor = p.anchor → q.names <+: p.names → Preserves R (mkdir q troubles)) :
    Preserves R (makeDirs p troubles) :=
  preserves_makeDirsWithin hrefl htrans _ h

end

theorem keeps_makeDirs (p : Path) : Preserves (Keeps l) (makeDirs p troubles) :=
  preserves_makeDirs (Keeps.refl l) .trans fun q _ _ => keeps_mkdir q

/-- What is held after a release was held before it, and is not at or below the place that was released. -/
theorem of_released {held : Option (List String)} (h : held.filter (!place.isPrefixOf ·) = some l) :
    held = some l ∧ ¬ place <+: l := by
  obtain ⟨hl, hnot⟩ := Option.filter_eq_some_iff.1 h
  refine ⟨hl, fun hp => ?_⟩
  rw [List.isPrefixOf_iff_prefix.2 hp] at hnot
  cases hnot

theorem unlink_cases (p : Path) (d : Disk) :
    ((unlink p troubles).run d).2 = d ∨
      ∃ place mode c, d.Finds p (.found place (.file mode c)) ∧
        ((unlink p troubles).run d).2 =
          { d.setAt place none with held := d.held.filter (!place.isPrefixOf ·) } := by
  rcases run_find_cases _ p d with h | ⟨spot, hs, h⟩
  · exact .inl h
  · rw [unlink, h]
    match spot with
    | .found place (.file mode c) => exact .inr ⟨place, mode, c, hs, rfl⟩
    | .found place (.dir es) => exact .inl rfl
    | .absent place => exact .inl rfl

/-- Removing a directory leaves the disk, or takes away, empties or thins out the directory that the path leads to. -/
theorem removeTree_cases (p : Path) (d : Disk) :
    ((removeTree p troubles).run d).2 = d ∨
      ∃ place es m held, d.Finds p (.found place (.dir es)) ∧
        ((removeTree p troubles).run d).2 = { d.setAt place m with held } ∧
        ∀ l, held = some l → d.held = some l := by
  rcases run_find_cases _ p d with h | ⟨spot, hs, h⟩
  · exact .inl h
  · rw [removeTree, h]
    match spot with
    | .found place (.dir es) =>
      dsimp only
      rw [run_bind_ok (run_get d)]
      split
      · exact .inr ⟨place, es, _, _, hs, rfl, fun l hl => (Option.filter_eq_some_iff.1 hl).1⟩
      · have hheld : ∀ l, d.held.filter (!place.isPrefixOf ·) = some l → d.held = some l :=
          fun l hl => (of_released hl).1
        split
        · exact .inr ⟨place, es, _, _, hs, rfl, hheld⟩
        · split
          · exact .inr ⟨place, es, _, _, hs, rfl, hheld⟩
          · exact .inr ⟨place, es, _, _, hs, rfl, hheld⟩
    | .found place (.file mode c) => exact .inl rfl
    | .absent place => exact .inl rfl

theorem held_removeTree (p : Path) :
    Preserves (fun d d' => ∀ l, d'.held = some l → d.held = some l) (removeTree p troubles) := by
  intro d l hl
  rcases removeTree_cases p d with h | ⟨place, es, m, held, -, h, hheld⟩
  · rwa [h] at hl
  · rw [h] at hl
    exact hheld l hl

/-- A moved file is at the target, and gone from where it was. A file that is held and was not moved was not
replaced either. -/
theorem move_eq_ok {source target : List String} {mode : Nat} {c : Content} {u : Unit}
    (h : (do
      if source ≠ target then release target
      setNode source none
      setNode target (some (.file mode c))
      modify fun d => { d with held := if d.held = some source then some target else d.held }
      : DiskM Unit).run d = (.ok u, d')) :
    d'.cwd = d.cwd ∧ d'.root = ((d.setAt source none).setAt target (some (.file mode c))).root ∧
      ∀ l, d'.held = some l →
        (d.held = some l ∧ l ≠ source ∧ (source ≠ target → ¬ target <+: l)) ∨
          (d.held = some source ∧ l = target) := by
  have hheld : ∀ {held : Option (List String)},
      (∀ l, held = some l → d.held = some l ∧ (source ≠ target → ¬ target <+: l)) →
      ∀ l, (if held = some source then some target else held) = some l →
        (d.held = some l ∧ l ≠ source ∧ (source ≠ target → ¬ target <+: l)) ∨
          (d.held = some source ∧ l = target) := by
    intro held hkept l hl
    split at hl
    · rename_i he
      exact .inr ⟨(hkept source he).1, (Option.some.inj hl).symm⟩
    · rename_i hne
      obtain ⟨hl', hnot⟩ := hkept l hl
      exact .inl ⟨hl', fun he => hne (he ▸ hl), hnot⟩
  split at h <;> cases h
  · exact ⟨rfl, rfl, hheld fun l hl => (of_released hl).imp_right fun hnot _ => hnot⟩
  · rename_i hsame
    exact ⟨rfl, rfl, hheld fun l hl => ⟨hl, fun hne => absurd hne hsame⟩⟩

/-- A move that succeeds moves a file to where the other path leads, over a file or to a free name. -/
theorem rename_eq_ok {q : Path} {u : Unit} (h : (rename p q troubles).run d = (.ok u, d')) :
    ∃ source mode c spot, d.locate p = .ok (.found source (.file mode c)) ∧ d.locate q = .ok spot ∧
      d.root.NoDirAt spot.place ∧ d'.cwd = d.cwd ∧
      d'.root = ((d.setAt source none).setAt spot.place (some (.file mode c))).root ∧
      ∀ l, d'.held = some l →
        (d.held = some l ∧ l ≠ source ∧ (source ≠ spot.place → ¬ spot.place <+: l)) ∨
          (d.held = some source ∧ l = spot.place) := by
  rw [rename, run_bind_ok (run_get d)] at h
  dsimp only at h
  split at h
  · cases h
  split at h
  · rename_i hs ht
    exact ⟨_, _, _, _, hs, ht, Node.noDirAt_of_file (get_of_walk (walk_of_locate ht)), move_eq_ok h⟩
  · rename_i hs ht
    exact ⟨_, _, _, _, hs, ht, noDirAt_of_absent (walk_of_locate ht), move_eq_ok h⟩
  all_goals cases h

theorem allOrNothing_find {α : Type} {f : Spot → DiskM α} (hf : ∀ spot, AllOrNothing (f spot)) :
    AllOrNothing (find p refuses >>= f) :=
  AllOrNothing.bind (readOnly_find p) hf

theorem allOrNothing_unbroken (troubles : Troubles) (p : Path) (c : Content) (mode : Nat) :
    AllOrNothing (write p c mode troubles.unbroken) := by
  refine allOrNothing_find fun spot => ?_
  split
  · exact .throw _
  · exact .modify _
  · exact .modify _

theorem allOrNothing_write (p : Path) (c : Content) (mode : Nat) : AllOrNothing (write p c mode) :=
  allOrNothing_unbroken .none p c mode

theorem allOrNothing_unlink (p : Path) : AllOrNothing (unlink p troubles) := by
  refine allOrNothing_find fun spot => ?_
  split
  · intro d e d' h
    cases h
  · exact .throw _
  · exact .pure _

theorem allOrNothing_createTemp (p : Path) : AllOrNothing (createTemp p troubles) := by
  intro d e d' h
  rw [createTemp, run_bind_ok (run_get d)] at h
  refine AllOrNothing.bind (readOnly_list _) (fun es => ?_) d e d' h
  intro d₁ e₁ d₂ h₁
  rcases hw : (write ((d.absolute p).child (freshName (es.map (·.1)))) (.bytes .empty) 0o600 troubles.unbroken).run d₁
    with ⟨e | u, d₃⟩
  · have hsame := allOrNothing_unbroken _ _ _ _ _ _ _ hw
    rw [run_bind_error hw] at h₁
    cases h₁
    exact hsame
  · rw [run_bind_ok hw] at h₁
    cases h₁

theorem allOrNothing_rename (p q : Path) : AllOrNothing (rename p q troubles) := by
  intro d e d' h
  rw [rename, run_bind_ok (run_get d)] at h
  dsimp only at h
  split at h
  · cases h
    rfl
  split at h
  all_goals first
    | (split at h <;> cases h)
    | (cases h; rfl)

theorem allOrNothing_chmod (p : Path) (mode : Nat) : AllOrNothing (chmod p mode troubles) := by
  refine allOrNothing_find fun spot => ?_
  split
  · exact .modify _
  · exact .pure _
  · exact .throw _

/-- A change of a mode leaves the disk, or gives the mode to the file that the path leads to. -/
theorem chmod_cases (p : Path) (mode : Nat) (d : Disk) :
    ((chmod p mode troubles).run d).2 = d ∨ ∃ place mode₀ c, d.Finds p (.found place (.file mode₀ c)) ∧
      ((chmod p mode troubles).run d).2 = d.setAt place (some (.file mode c)) := by
  rcases hr : (chmod p mode troubles).run d with ⟨e | u, d'⟩
  · exact .inl (allOrNothing_chmod p mode d e d' hr)
  · exact chmod_eq_ok hr

theorem allOrNothing_putCopy (place : List String) (old mode : Nat) (c : Content) (source target : Path) :
    AllOrNothing (putCopy place old mode c source target) := by
  intro d e d' h
  rw [putCopy, run_bind_ok (run_get d), run_bind_ok (run_get d)] at h
  cases h

theorem allOrNothing_copyFile (source target : Path) : AllOrNothing (copyFile source target) := by
  refine .bind (readOnly_isDir target) fun b => allOrNothing_find fun spot => allOrNothing_find fun spot' => ?_
  split
  · split
    · exact .throw _
    · exact allOrNothing_putCopy _ _ _ _ _ _
  · exact allOrNothing_putCopy _ _ _ _ _ _
  · exact .throw _
  · exact .throw _
  · exact .throw _

end Provision.Disk
