import Provision.Proofs.Disk.Creation
import Provision.Proofs.Disk.Shape

/-!
# What an operation spares

An operation spares a place (`Spares`) when everything at the place is as it was, and nothing has come
between the place and the root of the disk but directories. Operations on paths that lead apart from the
place spare it, and so does making a directory above it where there is none. The file held open must not be
at or below the place; it never gets there, as what is moved is moved to a place apart.
-/

namespace Provision

/-- Neither place is at or above the other. -/
structure Apart (l l' : List String) : Prop where
  above : ¬ l <+: l'
  below : ¬ l' <+: l

theorem Apart.symm {l l' : List String} (h : Apart l l') : Apart l' l := ⟨h.below, h.above⟩

theorem Apart.append {base l : List String} (h : Apart base l) (t : List String) :
    Apart (base ++ t) l := by
  refine ⟨fun hl => h.above ((List.prefix_append base t).trans hl), fun hl => ?_⟩
  rcases List.prefix_or_prefix_of_prefix hl (List.prefix_append base t) with h' | h'
  · exact h.below h'
  · exact h.above h'

theorem apart_entries (l : List String) {x y : String} (h : x ≠ y) : Apart (l ++ [x]) (l ++ [y]) := by
  have hinj : ∀ {x y : String}, l ++ [x] <+: l ++ [y] → x = y := fun hp => by
    simpa using (List.prefix_append_right_inj l).1 hp
  exact ⟨fun hp => h (hinj hp), fun hp => h (hinj hp).symm⟩

namespace Node

variable {n : Node} {m : Option Node} {place l t : List String}

theorem fileAt_set_above (n : Node) (m : Option Node) (l : List String) (ht : t ≠ []) :
    (n.set m (l ++ t)).FileAt l ↔ n.FileAt l := by
  rw [FileAt, FileAt, get_set_above n m l ht]
  cases n.get? l with
  | none => exact Iff.rfl
  | some c =>
    cases c with
    | file mode c => rw [Option.map_some, set_file mode c ht]
    | dir es =>
      obtain ⟨es', hes'⟩ := set_dir (m := m) es ht
      rw [Option.map_some, hes']
      constructor <;> rintro ⟨mode, c, h⟩ <;> cases h

end Node

namespace Disk

variable {d d' d'' : Disk} {p q : Path} {l place base : List String} {es : List (String × Node)}

/-- What is at the place is as it was, and there is a file on the way to it where there was one. -/
structure Spares (l : List String) (d d' : Disk) : Prop where
  cwd : d'.cwd = d.cwd
  dirs : Node.KeepsDirs d.root d'.root
  node : d'.root.get? l = d.root.get? l
  files : ∀ t, t <+: l → (d'.root.FileAt t ↔ d.root.FileAt t)
  held : ∀ t, d'.held = some t → d.held = some t ∨ ¬ l <+: t

theorem Spares.refl (l : List String) (d : Disk) : Spares l d d :=
  ⟨rfl, .refl _, rfl, fun _ _ => Iff.rfl, fun _ h => .inl h⟩

theorem Spares.trans (h : Spares l d d') (h' : Spares l d' d'') : Spares l d d'' := by
  refine ⟨h'.cwd.trans h.cwd, h.dirs.trans h'.dirs, h'.node.trans h.node,
    fun t ht => (h'.files t ht).trans (h.files t ht), fun t ht => ?_⟩
  rcases h'.held t ht with ht | ht
  · exact h.held t ht
  · exact .inr ht

theorem Spares.of_root (h : Spares l d d') (hcwd : d''.cwd = d'.cwd) (hroot : d''.root = d'.root)
    (hheld : ∀ t, d''.held = some t → d.held = some t ∨ ¬ l <+: t) : Spares l d d'' :=
  ⟨hcwd.trans h.cwd, hroot ▸ h.dirs, hroot ▸ h.node, hroot ▸ h.files, hheld⟩

theorem Spares.start (h : Spares l d d') (p : Path) : d'.start p = d.start p := by
  rw [Disk.start, Disk.start, h.cwd]

theorem Spares.absolute (h : Spares l d d') (p : Path) : d'.absolute p = d.absolute p := by
  rw [Disk.absolute, Disk.absolute, h.start]

theorem LeadsTo.of_spares (h : d.LeadsTo p place) (hs : Spares l d d') : d'.LeadsTo p place := by
  obtain ⟨es, h⟩ := h
  rw [LeadsTo, hs.start]
  exact walk_dir_keepsDirs hs.dirs h

theorem spares_setAt (m : Option Node) (hno : d.root.NoDirAt place) (ha : Apart place l) :
    Spares l d (d.setAt place m) := by
  refine ⟨rfl, Node.keepsDirs_set m hno, Node.get_set_apart _ _ ha.above ha.below, fun t ht => ?_,
    fun _ h => .inl h⟩
  rcases Node.place_cases place t with rfl | ⟨u, -, rfl⟩ | ⟨u, hu, rfl⟩ | ⟨hbelow, habove⟩
  · exact absurd ht ha.above
  · exact absurd ((List.prefix_append place u).trans ht) ha.above
  · exact Node.fileAt_set_above _ m t hu
  · rw [setAt_root, Node.FileAt, Node.FileAt, Node.get_set_apart _ _ hbelow habove]

theorem get_newDir_below {t : List String} (h : d.Finds p (.absent place)) (ht : t ≠ []) :
    d.root.get? (place ++ t) = none ∧ (d.setAt place (some (.dir []))).root.get? (place ++ t) = none := by
  refine ⟨Node.get_append_none (FileSpot.noDirAt (.inl h)) ht, ?_⟩
  obtain ⟨x, xs, rfl⟩ := List.exists_cons_of_ne_nil ht
  rw [Node.get_append, FileSpot.get_setAt (.inl h)]
  rfl

theorem fileAt_newDir (h : d.Finds p (.absent place)) (t : List String) :
    (d.setAt place (some (.dir []))).root.FileAt t ↔ d.root.FileAt t := by
  rcases Node.place_cases place t with rfl | ⟨u, hu, rfl⟩ | ⟨u, hu, rfl⟩ | ⟨hbelow, habove⟩
  · rw [Node.FileAt, Node.FileAt, FileSpot.get_setAt (.inl h), get_absent h.leads]
    constructor <;> rintro ⟨mode, c, hfile⟩ <;> cases hfile
  · obtain ⟨hwas, his⟩ := get_newDir_below h hu
    rw [Node.FileAt, Node.FileAt, hwas, his]
  · exact Node.fileAt_set_above _ _ t hu
  · rw [setAt_root, Node.FileAt, Node.FileAt, Node.get_set_apart _ _ hbelow habove]

theorem spares_newDir (h : d.Finds p (.absent place)) (hnot : ¬ l <+: place) :
    Spares l d (d.setAt place (some (.dir []))) := by
  refine ⟨rfl, Node.keepsDirs_set _ (FileSpot.noDirAt (.inl h)), ?_, fun t _ => fileAt_newDir h t,
    fun _ h => .inl h⟩
  rcases Node.place_cases place l with rfl | ⟨t, ht, rfl⟩ | ⟨t, -, rfl⟩ | ⟨hbelow, habove⟩
  · exact absurd (List.prefix_refl place) hnot
  · obtain ⟨hwas, his⟩ := get_newDir_below h ht
    rw [hwas, his]
  · exact absurd (List.prefix_append l t) hnot
  · exact Node.get_set_apart _ _ hbelow habove

theorem Grown.spares (h : Grown d d') (hheld : ∀ t, d.held = some t → ¬ l <+: t) : Spares l d d' :=
  ⟨h.cwd, h.shape.keepsDirs, h.node l hheld, fun t _ => h.shape.fileAt t,
    fun _ ht => .inl (h.held ▸ ht)⟩

/-! ### Operations on paths that lead elsewhere -/

/-- Wherever the path leads, it is apart from the place. -/
def LeadsApart (d : Disk) (p : Path) (l : List String) : Prop :=
  ∀ spot, d.locate p = .ok spot → Apart spot.place l

theorem spares_mkdir (h : ∀ place, d.Finds p (.absent place) → ¬ l <+: place) :
    Spares l d ((mkdir p).run d).2 := by
  rcases mkdir_cases p d with hd | ⟨place, hs, hd⟩
  · rw [hd]
    exact .refl l d
  · rw [hd]
    exact spares_newDir hs (h place hs)

theorem spares_write (h : d.LeadsApart p l) (c : Content) (mode : Nat) (troubles : Troubles) :
    Spares l d ((write p c mode troubles).run d).2 := by
  rcases write_cases p c mode d with hd | ⟨place, mode', c', -, hput⟩
  · rw [hd]
    exact .refl l d
  · obtain ⟨spot, hs, rfl⟩ := hput.spot.finds
    rw [hput.eq]
    exact spares_setAt _ hput.spot.noDirAt (h spot hs.locate)

theorem spares_release (l place : List String) (d : Disk) : Spares l d ((release place).run d).2 :=
  (Spares.refl l d).of_root rfl rfl fun _ ht => .inl (of_released ht).1

theorem spares_unlink (h : d.LeadsApart p l) : Spares l d ((unlink p).run d).2 := by
  rcases unlink_cases p d with hd | ⟨place, mode, c, hs, hd⟩
  · rw [hd]
    exact .refl l d
  · have hno : d.root.NoDirAt place := FileSpot.noDirAt (.inr ⟨mode, c, hs⟩)
    rw [hd]
    exact (spares_release l place d).trans (spares_setAt none hno (h _ hs.locate))

theorem apart_of_spot {mode : Nat} {c : Content} {source here names : List String} {spot : Spot}
    (hfile : d.root.get? source = some (.file mode c)) (hw : walk d.root here names = .ok spot)
    (hno : d.root.NoDirAt spot.place) (hne : source ≠ spot.place) : Apart source spot.place := by
  have hsource := Node.noDirAt_of_file hfile
  refine ⟨fun h => hne ?_, fun h => hne (hno.eq_of_above (by rw [hfile]; rfl) h).symm⟩
  cases spot with
  | found target n =>
    have htarget : (d.root.get? target).isSome = true := by rw [get_of_walk hw]; rfl
    exact hsource.eq_of_above htarget h
  | absent target =>
    obtain ⟨l, x, es, rfl, hes, -⟩ := get_of_walk_absent hw
    rcases List.prefix_concat_iff.1 h with h | h
    · exact h
    · -- The file would be at or above the directory of the free name.
      obtain rfl := hsource.eq_of_above (by rw [hes]; rfl) h
      exact absurd hes (hsource es)

theorem noDirAt_setAt (h : d.root.NoDirAt l) (ha : Apart place l) (m : Option Node) :
    (d.setAt place m).root.NoDirAt l := fun es hes => by
  rw [setAt_root, Node.get_set_apart _ _ ha.above ha.below] at hes
  exact h es hes

/-- A move spares a place that both its paths lead apart from. They must not lead to one file. -/
theorem spares_rename (hp : d.LeadsApart p l) (hq : d.LeadsApart q l)
    (hne : ∀ spot spot', d.locate p = .ok spot → d.locate q = .ok spot' → spot.place ≠ spot'.place) :
    Spares l d ((rename p q).run d).2 := by
  rcases hr : (rename p q).run d with ⟨e | u, d'⟩
  · rw [allOrNothing_rename p q d e d' hr]
    exact .refl l d
  · obtain ⟨source, mode, c, spot, hs, ht, hno, hcwd, hroot, hheld⟩ := rename_eq_ok hr
    have hfile := get_of_walk (walk_of_locate hs)
    have hapart := apart_of_spot hfile (walk_of_locate ht) hno (hne _ _ hs ht)
    have hremoved := spares_setAt none (Node.noDirAt_of_file hfile) (hp _ hs)
    have hmoved := spares_setAt (some (.file mode c)) (noDirAt_setAt hno hapart none) (hq _ ht)
    refine (hremoved.trans hmoved).of_root hcwd hroot fun t h => ?_
    rcases hheld t h with ⟨h, -⟩ | ⟨-, rfl⟩
    · exact .inl h
    · exact .inr (hq _ ht).below

/-- The absolute path names a place at or below the base. -/
def Inside (d : Disk) (base : List String) (p : Path) : Prop :=
  base <+: (d.absolute p).names

theorem Inside.child {name : String} (h : d.Inside base p)
    (hn : name = "" ∨ name = "." ∨ (Path.IsSingle name ∧ name ≠ "..")) :
    d.Inside base (p.child name) := by
  rcases hn with rfl | rfl | ⟨hs, hd⟩
  · rwa [Path.child_empty]
  · rwa [Path.child_dot]
  · rw [Inside, absolute_child d p hs hd, Path.names_child _ hs]
    exact h.trans (List.prefix_append _ _)

theorem names_absolute_absolute (d : Disk) (p : Path) :
    (d.absolute (d.absolute p)).names = (d.absolute p).names := by
  have hdots : ".." ∉ (d.absolute p).names := Path.no_dots_collapse _
  change follow [] (d.start (d.absolute p) ++ (d.absolute p).names) = _
  rw [start_absolute, List.nil_append, follow_of_no_dots hdots, List.nil_append]

theorem Inside.absolute (h : d.Inside base p) : d.Inside base (d.absolute p) := by
  rwa [Inside, names_absolute_absolute]

theorem Inside.leadsApart (h : d.Inside base p) (hc : ∀ x ∈ d.cwd, IsPlain x) (ha : Apart base l) :
    d.LeadsApart p l := by
  intro spot hs
  obtain ⟨t, ht⟩ := h
  rw [place_eq_absolute hc (walk_of_locate hs), ← ht]
  exact ha.append t

theorem Inside.temp {name : String} (h : d.Inside base p) (hn : IsTempName name) :
    d.Inside base ((d.absolute p).child name) := by
  refine h.absolute.child ?_
  rcases hn.cases with he | ⟨hs, cs, hcs⟩
  · exact .inl he
  · refine .inr (.inr ⟨hs, fun he => ?_⟩)
    rw [he] at hcs
    cases hcs

theorem spares_createTemp (h : d.Inside base p) (hc : ∀ x ∈ d.cwd, IsPlain x) (ha : Apart base l) :
    Spares l d ((createTemp p).run d).2 := by
  rw [createTemp, run_bind_ok (run_get d)]
  rcases hl : (list (d.absolute p)).run d with ⟨e | es, d₁⟩
  · rw [run_bind_error hl]
    exact ((readOnly_list _).preserves (Spares.refl l)).of_run hl
  · obtain rfl := (readOnly_list _).run_eq hl
    rw [run_bind_ok hl]
    have hw := spares_write ((h.temp (isTempName_freshName (es.map (·.1)))).leadsApart hc ha)
      (.bytes .empty) 0o600 .none
    rcases hr : (write ((d.absolute p).child (freshName (es.map (·.1)))) (.bytes .empty) 0o600).run d with
      ⟨e | u, d₂⟩
    · rw [run_bind_error hr]
      rwa [hr] at hw
    · rw [run_bind_ok hr]
      rwa [hr] at hw

end Disk

end Provision
