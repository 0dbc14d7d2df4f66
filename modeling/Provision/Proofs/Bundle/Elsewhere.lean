import Provision.Proofs.Bundle.Content
import Provision.Proofs.Disk.Archive
import Provision.Proofs.Store.Stock

/-!
# What an export leaves alone

An export changes nothing but what is at its target (`Disk.Confined`), and the archive beside it. A store that is
in use elsewhere stays as it is (`inUse_install`).
-/

namespace Provision

open Disk (Below PutsFile Cleared)

namespace Disk

variable {d d' d'' : Disk} {p q : Path} {place more : List String} {mode : Nat} {c : Content} {u : Unit}

theorem PutsFile.confined (h : PutsFile q place mode c d d') (hq : q.EndsClean) (hb : Below p more q) :
    Confined p d d' := by
  obtain ⟨spot, hspot, hplace⟩ := h.spot.finds
  have hplace : place = d.placeOf p ++ more := by
    rw [← placeOf_below hb, ← hplace]
    exact place_eq_follow hspot.leads
  refine ⟨⟨?_, fun l hl => ?_, h.sane hq⟩, fun l hl _ => ?_⟩
  · rw [h.eq, setAt_cwd]
  · rwa [h.eq, setAt_held] at hl
  · rw [h.eq, hplace]
    exact Node.get_set_apart _ _ (hl.append more).above (hl.append more).below

theorem confined_of_write (h : (write q c mode).run d = (.ok u, d')) (hq : q.EndsClean) (hb : Below p more q) :
    Confined p d d' := by
  obtain ⟨place, mode', hput⟩ := putsFile_of_write h
  exact hput.confined hq hb

theorem confined_of_chmod (h : (chmod q mode).run d = (.ok u, d')) (hq : q.EndsClean) (hb : Below p more q) :
    Confined p d d' := by
  rcases chmod_eq_ok h with rfl | ⟨place, mode₀, c, hf, hd'⟩
  · exact .refl p d'
  · have hput : PutsFile q place mode c d d' := ⟨.inr ⟨mode₀, c, hf⟩, hd'⟩
    exact hput.confined hq hb

end Disk

open Disk (Confined)

theorem Store.InUse.of_confined {s : Store} {m : Ledger} {d d' : Disk} {p : Path} (h : s.InUse m d)
    (hc : Confined p d d') (ha : Apart (d.placeOf p) (d.placeOf s.root)) : s.InUse m d' :=
  h.of_stays hc.toStays (h.stocked.of_root hc.cwd (hc.node _ ha h.held))

namespace Bundle

variable {s : Store} {r : Recipe} {a : Artifacts} {target path : Path} {w w' : Workspace} {m : Ledger}
  {d d' : Disk} {id text : String} {format : Format} {u : Unit}

theorem sane_of_clear (h : (clear target).run d = (.ok u, d')) (hd : d.Sane) : d'.Sane := by
  obtain ⟨b, d₁, hexists, h⟩ := run_bind_eq_ok.1 h
  obtain rfl := (Disk.readOnly_pathExists target).run_eq hexists
  cases b with
  | true => exact Disk.sane_of_removeTree h hd
  | false =>
    cases h
    exact hd

theorem confined_of_clear (hcleared : Cleared target d d') (h : (clear target).run d = (.ok u, d')) :
    Confined target d d' :=
  ⟨⟨hcleared.cwd, fun l hl => (hcleared.held l hl).1, sane_of_clear h⟩, fun l hl _ => hcleared.node l hl⟩

section

variable (hclean : target.Clean)

include hclean

theorem confined_of_makeDirs (hdots : ".." ∉ target.names) (hshort : target.text.utf8ByteSize < Disk.pathLimit)
    (hnone : d.root.get? (d.placeOf target) = none)
    (h : (Disk.makeDirs (target.child Save.assetsDir)).run d = (.ok u, d')) : Confined target d d' := by
  have hkeeps := (Disk.keeps_makeDirs (l := []) _).of_run h
  refine ⟨⟨hkeeps.cwd, fun l hl => hkeeps.held ▸ hl, (Disk.sane_makeDirs (hclean.child _)).of_run h⟩, fun l hl _ => ?_⟩
  obtain ⟨-, hspares, -⟩ := Disk.makeDirs_child_eq_ok Save.isEntry_assetsDir.single (by decide) hshort hnone
    (Disk.staysOut_of_no_dots hdots fun _ => rfl) (Disk.avoids_of_no_dots hdots hl.below) hl.above h
  exact hspares.node

theorem confined_of_copyFiles
    (h : (Store.copyFiles (s.assetsPath id) (target.child Save.assetsDir)).run d = (.ok u, d')) :
    Confined target d d' := by
  refine rel_copyFiles (Confined.refl target) .trans (fun hs h => ?_) h
  obtain ⟨p, more, place, source, mode, c, hbelow, hp, -, hput⟩ := putsFile_of_copyFile hs h
  exact hput.confined (hp hclean).endsClean hbelow

theorem confined_of_writeScripts (h : (writeScripts target a).run d = (.ok u, d')) : Confined target d d' := by
  have hscript := (Below.refl target).child isEntry_scriptFile.single (by decide)
  have hnotes := (Below.refl target).child isEntry_notesFile.single (by decide)
  obtain ⟨_, d₁, h1, h⟩ := run_bind_eq_ok.1 h
  obtain ⟨_, d₂, h2, h⟩ := run_bind_eq_ok.1 h
  obtain ⟨_, d₃, h3, h⟩ := run_bind_eq_ok.1 h
  have hends := fun x => (hclean.child x).endsClean
  exact (Disk.confined_of_write h1 (hends _) hscript).trans ((Disk.confined_of_chmod h2 (hends _) hscript).trans
    ((Disk.confined_of_write h3 (hends _) hnotes).trans (Disk.confined_of_chmod h (hends _) hnotes)))

theorem inUse_writeBundle (hdots : ".." ∉ target.names) (hshort : target.text.utf8ByteSize < Disk.pathLimit)
    (h : s.InUse m w.disk) (ha : Apart (w.disk.placeOf target) (w.disk.placeOf s.root))
    (hnone : w.disk.root.get? (w.disk.placeOf target) = none)
    (hrun : (s.writeBundle r target (some text)).run w = (.ok u, w')) :
    s.InUse m w'.disk ∧ w.disk.Stays w'.disk := by
  obtain ⟨d₁, d₃, d₄, hdirs, hwrite, hcopy, rfl⟩ := writeBundle_phases hrun
  have hrecipe := (Below.refl target).child Save.isEntry_recipeFile.single (by decide)
  have hconfined := (confined_of_makeDirs hclean hdots hshort hnone hdirs).trans
    ((Disk.confined_of_write hwrite (hclean.child _).endsClean hrecipe).trans (confined_of_copyFiles hclean hcopy))
  have hlogs := Workspace.logs_emit { w with disk := d₄ }
    ⟨.debug, Store.logName, "Bundle files written to " ++ target.text⟩
  have hlogged := hconfined.trans (.of_grown target hlogs.disk)
  exact ⟨h.of_confined hlogged ha, hlogged.toStays⟩

end

/-! ### The archive -/

theorem members_eq_ok {ms : List Member} (h : (Disk.members target).run d = (.ok ms, d')) :
    d = d' ∧ ∃ l n, d.Finds target (.found l n) ∧ ms = Disk.membersOf target.name n := by
  obtain ⟨spot, hf, h⟩ := Disk.find_bind_eq_ok h
  cases spot with
  | absent l => cases h
  | found l n =>
    cases h
    exact ⟨rfl, l, n, hf, rfl⟩

/-- To pack a directory is to write its members to the archive, once it is known that there can be one. -/
theorem pack_eq_ok (h : (pack target).run d = (.ok path, d')) :
    path = archivePath target ∧ target.name ≠ "" ∧ ∃ d₁ l n,
      (Disk.write (archivePath target) (.archive [])).run d = (.ok (), d₁) ∧ d₁.Finds target (.found l n) ∧
      (Disk.write (archivePath target) (.archive (Disk.membersOf target.name n))).run d₁ = (.ok (), d') := by
  rw [pack] at h
  split at h
  · cases h
  · rename_i hname
    obtain ⟨_, d₁, h1, h⟩ := run_bind_eq_ok.1 h
    obtain ⟨ms, d₂, h2, h⟩ := run_bind_eq_ok.1 h
    obtain ⟨rfl, l, n, hf, rfl⟩ := members_eq_ok h2
    obtain ⟨_, d₃, h3, h⟩ := run_bind_eq_ok.1 h
    cases h
    exact ⟨rfl, hname, d₁, l, n, h1, hf, h3⟩

theorem archived_of_pack {place : List String} {es : List (String × Node)} (h : d.Holds target place es)
    (hout : d.StaysOut target place) (hne : place ≠ []) (hp : (pack target).run d = (.ok path, d')) :
    path = archivePath target ∧
      d'.HasFile path (d.placeOf path) (.archive (Disk.membersOf target.name (.dir es))) := by
  obtain ⟨rfl, hname, d₁, l, n, h1, hf, h3⟩ := pack_eq_ok hp
  have h₁ := h.of_spares (spares_archive h hout hne hname h1)
  cases hf.unique h₁.finds
  obtain ⟨place', mode, hput⟩ := Disk.putsFile_of_write h3
  obtain ⟨spot, hspot, rfl⟩ := hput.spot.finds
  obtain ⟨place₁, mode₁, hput₁⟩ := Disk.putsFile_of_write h1
  have hcwd : d₁.cwd = d.cwd := by rw [hput₁.eq, Disk.setAt_cwd]
  have hplace : spot.place = d.placeOf (archivePath target) := by
    rw [← Disk.placeOf_of_cwd hcwd]
    exact Disk.place_eq_follow hspot.leads
  exact ⟨rfl, hplace ▸ hput.hasFile⟩

theorem placeOf_archivePath (d : Disk) (hdots : ".." ∉ target.names) (hname : target.name ≠ "") :
    ∃ l, d.placeOf target = l ++ [target.name] ∧ d.placeOf (archivePath target) = l ++ [target.name ++ ".tar.gz"] := by
  obtain ⟨ns, hx⟩ := Path.names_eq_concat hname
  have hnames : (archivePath target).names = ns ++ [target.name ++ ".tar.gz"] := by
    rw [archivePath, Path.withName, hx, List.dropLast_concat]
  have hns : ".." ∉ ns := fun h => hdots (hx ▸ List.mem_append_left _ h)
  have harchive : ".." ∉ (archivePath target).names := by
    rw [hnames, List.mem_append, List.mem_singleton, not_or]
    exact ⟨hns, (archive_not_mem_files target.name).2.symm⟩
  refine ⟨d.start target ++ ns, ?_, ?_⟩
  · rw [Disk.placeOf_of_no_dots d hdots, hx, List.append_assoc]
  · rw [Disk.placeOf_of_no_dots d harchive, hnames, List.append_assoc]
    rfl

/-- A place that is not below the target is not below the archive either, but may be the archive. -/
theorem archive_eq_of_below {l : List String} (hdots : ".." ∉ target.names) (hname : target.name ≠ "")
    (hl : ¬ l <+: d.placeOf target) (hp : l <+: d.placeOf (archivePath target)) :
    d.placeOf (archivePath target) = l := by
  obtain ⟨ns, htarget, harchive⟩ := placeOf_archivePath d hdots hname
  rw [harchive] at hp ⊢
  rcases List.prefix_concat_iff.1 hp with hp | hp
  · exact hp.symm
  · exact absurd (hp.trans (htarget ▸ List.prefix_append _ _)) hl

/-- An archive is neither in the store nor above it, as it is no directory and the target is not in the store. -/
theorem archive_apart_root (hdots : ".." ∉ target.names) (hname : target.name ≠ "")
    (ha : Apart (d.placeOf target) (d.placeOf s.root)) {es : List (String × Node)}
    (hroot : d.root.get? (d.placeOf s.root) = some (.dir es)) (hno : d.root.NoDirAt (d.placeOf (archivePath target))) :
    Apart (d.placeOf (archivePath target)) (d.placeOf s.root) := by
  have habove : ¬ d.placeOf (archivePath target) <+: d.placeOf s.root := fun hp => by
    rw [← hno.eq_of_above (by rw [hroot]; rfl) hp] at hroot
    exact hno es hroot
  refine ⟨habove, fun hp => habove ?_⟩
  have heq : d.placeOf (archivePath target) = d.placeOf s.root := archive_eq_of_below hdots hname ha.below hp
  exact heq ▸ List.prefix_refl _

theorem endsClean_archivePath (hclean : target.Clean) (hname : target.name ≠ "") : (archivePath target).EndsClean := by
  intro ns x hx
  obtain ⟨-, hlast⟩ := List.append_inj' hx rfl
  obtain rfl := List.singleton_inj.1 hlast
  have hsingle : Path.IsSingle target.name := by
    obtain ⟨ns, hx⟩ := Path.names_eq_concat hname
    exact hclean.endsClean ns _ hx
  refine ⟨fun c hc => ?_, fun he => ?_, fun he => ?_⟩
  · rw [String.toList_append, List.mem_append] at hc
    rcases hc with hc | hc
    · exact hsingle.noSlash c hc
    · rintro rfl
      revert hc
      decide
  · exact hsingle.ne_empty (String.append_eq_empty_iff.1 he).1
  · have hsize := congrArg String.utf8ByteSize he
    rw [String.utf8ByteSize_append] at hsize
    have htar : ".tar.gz".utf8ByteSize = 7 := by decide
    have hdot : ".".utf8ByteSize = 1 := by decide
    omega

theorem inUse_pack (hclean : target.Clean) (hdots : ".." ∉ target.names) (h : s.InUse m d)
    (ha : Apart (d.placeOf target) (d.placeOf s.root)) (hstored : (m.record id).recipe = some r)
    (hp : (pack target).run d = (.ok path, d')) : s.InUse m d' ∧ d.Stays d' := by
  obtain ⟨es, hroot⟩ := h.root_dir hstored
  obtain ⟨rfl, hname, d₁, l, n, h1, -, h3⟩ := pack_eq_ok hp
  have hends := endsClean_archivePath hclean hname
  obtain ⟨place, mode, hput⟩ := Disk.putsFile_of_write h1
  have hno : d.root.NoDirAt (d.placeOf (archivePath target)) := by
    obtain ⟨spot, hspot, hplace⟩ := hput.spot.finds
    rw [Disk.placeOf, ← Disk.place_eq_follow hspot.leads, hplace]
    exact hput.spot.noDirAt
  have hc₁ := Disk.confined_of_write h1 hends (.refl (archivePath target))
  have hconfined := hc₁.trans (Disk.confined_of_write h3 hends (.refl (archivePath target)))
  exact ⟨h.of_confined hconfined (archive_apart_root hdots hname ha hroot hno), hconfined.toStays⟩

theorem dir_of_install (h : (install s r a target format).run w = (.ok path, w')) :
    ∃ w₁, (install s r a target .dir).run w = (.ok target, w₁) ∧
      (format = .dir ∧ path = target ∧ w' = w₁ ∨
        format = .tarGz ∧ ∃ d, (pack target).run w₁.disk = (.ok path, d) ∧ w' = { w₁ with disk := d }) := by
  obtain ⟨d₁, w₂, d₃, hclear, hbundle, hscripts, hformat⟩ := install_eq_ok h
  refine ⟨{ w₂ with disk := d₃ }, ?_, hformat⟩
  exact run_bind_eq_ok.2 ⟨(), _, WorkM.run_onDisk_ok hclear,
    run_bind_eq_ok.2 ⟨(), w₂, hbundle, run_bind_eq_ok.2 ⟨(), _, WorkM.run_onDisk_ok hscripts, rfl⟩⟩⟩

section

variable (hdots : ".." ∉ target.names) (hid : Store.isName id = true) (h : s.InUse m w.disk)
  (ha : Apart (w.disk.placeOf target) (w.disk.placeOf s.root))

include hdots hid h ha

theorem ready_of_inUse : Ready s id target w.disk := by
  refine ready_of_no_dots h.sane hid hdots h.dots ha fun l hl hp => h.held l hl (.trans ?_ hp)
  obtain ⟨more, hbelow⟩ := assets_below hid s
  rw [Disk.placeOf_below hbelow]
  exact List.prefix_append _ _

theorem inUse_install {stored : Recipe} (hclean : target.Clean) (hstored : (m.record id).recipe = some stored)
    (hrun : (install s r a target format).run w = (.ok path, w')) : s.InUse m w'.disk ∧ w.disk.Stays w'.disk := by
  obtain ⟨d₁, w₂, d₃, hclear, hbundle, hscripts, hformat⟩ := install_eq_ok hrun
  have hapart : ∀ {d : Disk}, w.disk.Stays d → Apart (d.placeOf target) (d.placeOf s.root) := fun hs => by
    rwa [Disk.placeOf_of_cwd hs.cwd, Disk.placeOf_of_cwd hs.cwd]
  -- What was there is cleared, and the bundle is written.
  obtain ⟨hcleared, hshort⟩ := cleared_of_clear (ready_of_inUse hdots hid h ha) (noNul_of_writeBundle hbundle) hclear
  have hc₁ := confined_of_clear hcleared hclear
  have h₁ := h.of_confined hc₁ ha
  have hgone := hcleared.gone
  rw [← Disk.placeOf_of_cwd hcleared.cwd] at hgone
  obtain ⟨h₂, hs₂⟩ :=
    inUse_writeBundle (w := { w with disk := d₁ }) hclean hdots hshort h₁ (hapart hc₁.toStays) hgone hbundle
  have hs₂ := hc₁.toStays.trans hs₂
  have hc₃ := confined_of_writeScripts hclean hscripts
  have h₃ := h₂.of_confined hc₃ (hapart hs₂)
  have hs₃ := hs₂.trans hc₃.toStays
  rcases hformat with ⟨-, -, rfl⟩ | ⟨-, d, hpack, rfl⟩
  · exact ⟨h₃, hs₃⟩
  · obtain ⟨h₄, hs₄⟩ := inUse_pack hclean hdots h₃ (hapart hs₃) hstored hpack
    exact ⟨h₄, hs₃.trans hs₄⟩

end

end Bundle

end Provision
