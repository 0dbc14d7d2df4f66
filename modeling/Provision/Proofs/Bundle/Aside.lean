import Provision.Proofs.Bundle.Elsewhere
import Provision.Proofs.Bundle.Reach

/-!
# Exports aside of a store

Whatever becomes of an export, a directory apart from its target has in it what it had (`export_cases`). This is
told of the directory as a whole, so it holds of a store with everything below its root. Nothing is assumed of the
tree: where there is a directory, nothing but a file can be put above it, and no operation puts one over a directory.
-/

namespace Provision

open Disk (Below PutsFile)

namespace Disk

variable {d d' : Disk} {cwd place l : List String} {es : List (String × Node)} {p : Path} {troubles : Troubles}

/-- At the place is a directory with these entries, and no file in it is held. -/
structure Shelters (cwd place : List String) (es : List (String × Node)) (d : Disk) : Prop where
  cwd : d.cwd = cwd
  node : d.root.get? place = some (.dir es)
  held : ∀ l, d.held = some l → ¬ place <+: l

namespace Shelters

/-- A change where there is no directory, and nowhere below the place, is apart from it. -/
theorem setAt (h : Shelters cwd place es d) (m : Option Node) (hno : d.root.NoDirAt l)
    (hl : place <+: l → l = place) : Shelters cwd place es (d.setAt l m) := by
  have hbelow : ¬ place <+: l := fun hp => hno es (hl hp ▸ h.node)
  have habove : ¬ l <+: place := fun hp =>
    hbelow (hno.eq_of_above (by rw [h.node]; rfl) hp ▸ List.prefix_refl l)
  exact ⟨h.cwd, (Node.get_set_apart _ _ habove hbelow).trans h.node, h.held⟩

theorem of_puts (h : Shelters cwd place es d)
    (hput : d' = d ∨ ∃ q l mode c, (place <+: l → l = place) ∧ PutsFile q l mode c d d') :
    Shelters cwd place es d' := by
  rcases hput with rfl | ⟨q, l, mode, c, hl, hputs⟩
  · exact h
  · rw [hputs.eq]
    exact h.setAt _ hputs.spot.noDirAt hl

theorem write (h : Shelters cwd place es d) (hl : place <+: d.placeOf p → d.placeOf p = place) (c : Content)
    (mode : Nat) : Shelters cwd place es ((write p c mode troubles).run d).2 := by
  refine h.of_puts ((write_cases p c mode d).imp_right ?_)
  rintro ⟨l, mode', c', -, hput⟩
  exact ⟨p, l, mode', c', hput.spot.eq_placeOf ▸ hl, hput⟩

theorem chmod (h : Shelters cwd place es d) (hl : place <+: d.placeOf p → d.placeOf p = place) (mode : Nat) :
    Shelters cwd place es ((chmod p mode troubles).run d).2 := by
  refine h.of_puts ((chmod_cases p mode d).imp_right ?_)
  rintro ⟨l, mode₀, c, hf, hd'⟩
  have hspot : d.FileSpot p l := .inr ⟨mode₀, c, hf⟩
  exact ⟨p, l, mode, c, hspot.eq_placeOf ▸ hl, hspot, hd'⟩

theorem mkdir (h : Shelters cwd place es d) (hl : place <+: d.placeOf p → d.placeOf p = place) :
    Shelters cwd place es ((mkdir p troubles).run d).2 := by
  rcases mkdir_cases p d with hd | ⟨l, hs, hd⟩
  · rwa [hd]
  · have hplace : l = d.placeOf p := place_eq_follow hs.leads
    rw [hd]
    exact h.setAt _ (noDirAt_of_absent hs.leads) (hplace ▸ hl)

theorem append (h : Shelters cwd place es d) (line : ByteArray) : Shelters cwd place es (d.append line) := by
  unfold Disk.append
  split
  · exact h
  · rename_i l hheld
    split
    · rename_i mode c hfile
      exact h.setAt _ (Node.noDirAt_of_file hfile) fun hp => absurd hp (h.held l hheld)
    · exact h

theorem removeTree (h : Shelters cwd place es d) (ha : Apart (d.placeOf p) place) :
    Shelters cwd place es ((removeTree p troubles).run d).2 := by
  rcases removeTree_cases p d with hd | ⟨l, es', m, held, hs, hd, hheld⟩
  · rwa [hd]
  · have hplace : l = d.placeOf p := place_eq_follow hs.leads
    rw [← hplace] at ha
    rw [hd]
    exact ⟨h.cwd, (Node.get_set_apart _ _ ha.above ha.below).trans h.node, fun t ht => h.held t (hheld t ht)⟩

end Shelters

end Disk

namespace Bundle

open Disk (Shelters)

variable {s : Store} {q : Request} {r : Recipe} {a : Artifacts} {target p : Path} {format : Format} {d : Disk}
  {cwd place more : List String} {es : List (String × Node)} {w w' : Workspace} {res : Except Failure Outcome}
  {room : Room} {troubles : Disk.Troubles}

/-- The target is apart from the place, whatever is at both, and its path does not lead up. -/
structure Aside (cwd place : List String) (target : Path) : Prop where
  dots : ".." ∉ target.names
  apart : ∀ d : Disk, d.cwd = cwd → Apart (d.placeOf target) place

namespace Aside

theorem below (h : Aside cwd place target) (hc : d.cwd = cwd) (hb : Below target more p) :
    place <+: d.placeOf p → d.placeOf p = place := by
  intro hp
  rw [Disk.placeOf_below hb] at hp
  exact absurd hp ((h.apart d hc).append more).below

theorem mkdir (h : Aside cwd place target) (hanchor : p.anchor = target.anchor)
    (hp : p.names <+: target.names ++ [Save.assetsDir]) :
    Preserves (fun d d' => Shelters cwd place es d → Shelters cwd place es d') (Disk.mkdir p troubles) := by
  refine fun d hd => hd.mkdir fun hbefore => ?_
  -- What would be made there would be below the target, or on the way to it.
  have hdots : ".." ∉ target.names ++ [Save.assetsDir] := by
    rw [List.mem_append, List.mem_singleton, not_or]
    exact ⟨h.dots, by decide⟩
  have hbelow : d.placeOf p <+: d.placeOf target ++ [Save.assetsDir] := by
    rw [Disk.placeOf_of_no_dots d fun hx => hdots (hp.subset hx), Disk.placeOf_of_no_dots d h.dots, List.append_assoc,
      Disk.start, Disk.start, Path.isAbsolute, Path.isAbsolute, hanchor]
    exact (List.prefix_append_right_inj _).2 hp
  exact absurd (hbefore.trans hbelow) ((h.apart d hd.cwd).append _).below

theorem copyFile (h : Aside cwd place target) (hs : p.name = "" ∨ Path.IsSingle p.name) :
    Preserves (fun d d' => Shelters cwd place es d → Shelters cwd place es d')
      (Disk.copyFile p ((target.child Save.assetsDir).child p.name) troubles) := by
  refine fun d hd => hd.of_puts ((copyFile_puts hs d).imp_right ?_)
  rintro ⟨p', more, l, source, mode, mode', c, c', hb, -, -, hput⟩
  exact ⟨p', l, mode', c', hput.spot.eq_placeOf ▸ h.below hd.cwd hb, hput⟩

theorem stepwise (h : Aside cwd place target) (s : Store) (r : Recipe) (a : Artifacts) :
    Stepwise s r a target troubles fun d d' => Shelters cwd place es d → Shelters cwd place es d' where
  refl _ := id
  trans h h' := h' ∘ h
  mkdir _ hanchor hp := h.mkdir hanchor hp
  write _ _ hx _ hd := hd.write (h.below hd.cwd (below_of_mem_texts hx)) _ _
  chmod _ _ hx _ _ hd := hd.chmod (h.below hd.cwd (below_of_mem_texts hx)) _
  copyFile _ _ _ hs := h.copyFile hs
  append _ line hd := hd.append line

theorem clear (h : Aside cwd place target) :
    Preserves (fun d d' => Shelters cwd place es d → Shelters cwd place es d') (clear target troubles) := by
  refine .bind (fun h h' => h' ∘ h) ((Disk.readOnly_pathExists target).preserves fun _ => id) fun b => ?_
  cases b with
  | false => exact .pure (fun _ => id) _
  | true => exact fun d hd => hd.removeTree (h.apart d hd.cwd)

theorem pack (h : Aside cwd place target) :
    Preserves (fun d d' => Shelters cwd place es d → Shelters cwd place es d') (pack target troubles) := by
  rw [Bundle.pack]
  split
  · exact .throw (fun _ => id) _
  · rename_i hname
    have harchive : ∀ c, Preserves (fun d d' => Shelters cwd place es d → Shelters cwd place es d')
        (Disk.write (archivePath target) c 0o644 troubles) := fun c d hd =>
      hd.write (archive_eq_of_below h.dots hname (h.apart d hd.cwd).below) c _
    exact .bind (fun h h' => h' ∘ h) (harchive _) fun _ =>
      .bind (fun h h' => h' ∘ h) ((Disk.readOnly_members target).preserves fun _ => id) fun _ =>
        .bind (fun h h' => h' ∘ h) (harchive _) fun _ => .pure (fun _ => id) _

end Aside

theorem tempDir_onDisk {α : Type} {failure : DiskFault → Failure} (x : DiskM α) :
    Preserves (fun w w' : Workspace => w'.tempDir = w.tempDir) (WorkM.onDisk failure x) := by
  intro w
  rcases hx : x.run w.disk with ⟨e | a, d⟩
  · rw [WorkM.run_onDisk_error hx]
  · rw [WorkM.run_onDisk_ok hx]

theorem tempDir_install (s : Store) (r : Recipe) (a : Artifacts) (target : Path) (format : Format)
    (troubles : Disk.Troubles) :
    Preserves (fun w w' : Workspace => w'.tempDir = w.tempDir) (install s r a target format troubles) := by
  have htrans : ∀ {w w' w'' : Workspace}, w'.tempDir = w.tempDir → w''.tempDir = w'.tempDir →
      w''.tempDir = w.tempDir := fun h h' => h'.trans h
  refine .bind htrans (tempDir_onDisk _) fun _ => .bind htrans ?_ fun _ => .bind htrans (tempDir_onDisk _) fun _ => ?_
  · refine .bind htrans (tempDir_onDisk _) fun _ => .bind htrans (fun _ => rfl) fun _ => ?_
    exact .bind htrans (tempDir_onDisk _) fun _ => .bind htrans (tempDir_onDisk _) fun _ w =>
      (Workspace.logs_emit w _).tempDir
  · cases format with
    | dir => exact fun _ => rfl
    | tarGz => exact tempDir_onDisk _

theorem Ends.tempDir (hends : Ends s q r format room troubles w res w') : w'.tempDir = w.tempDir :=
  hends.rel (R := fun w w' => w'.tempDir = w.tempDir) (fun _ => rfl) (fun h h' => h'.trans h)
    (fun hlogged => hlogged.tempDir) fun a => tempDir_install s r a _ format troubles

theorem Ends.shelters (hends : Ends s q r format room troubles w res w') (h : Aside cwd place (targetOf q r w.tempDir))
    (hd : Shelters cwd place es w.disk) : Shelters cwd place es w'.disk := by
  refine hends.rel (R := fun w w' => Shelters cwd place es w.disk → Shelters cwd place es w'.disk) (fun _ => id)
    (fun h h' => h' ∘ h) (fun hlogged => ?_) (fun a => (h.stepwise s r a).install h.clear fun _ => h.pack) hd
  exact hlogged.disk.rel (R := fun d d' => Shelters cwd place es d → Shelters cwd place es d') (fun _ => id)
    (fun h h' => h' ∘ h) fun _ line hd => hd.append line

/-- An export changes nothing in a directory apart from its target, and nothing at all where no recipe is loaded. -/
theorem export_cases (h : (exportProject s q).run w = (res, w')) :
    w' = w ∨ ∃ r, (s.loadRecipe q.project).run w = (.ok r, w) ∧ w'.tempDir = w.tempDir ∧
      ∀ cwd place es, Aside cwd place (targetOf q r w.tempDir) → Shelters cwd place es w.disk →
        Shelters cwd place es w'.disk := by
  cases exportProject_concludes h with
  | unsupported | notLoaded => exact .inl rfl
  | @loaded r format _ _ _ hload hexport =>
    have hends := exportRecipe_ends s q r format .standard .none w
    rw [hexport] at hends
    exact .inr ⟨r, hload, hends.tempDir, fun _ _ _ => hends.shelters⟩

end Bundle

end Provision
