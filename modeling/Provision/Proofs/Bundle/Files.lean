import Provision.Bundle.Export
import Provision.Proofs.Disk.Sanity
import Provision.Proofs.Store.Names
import Provision.Proofs.Workspace

/-!
# The files of a bundle

What the phases of an export write, and what they leave. Each file of a bundle is written once below
the target, and no later phase puts anything in its place: copies go below the directory for assets,
the archive stands beside the target under another name, and the log goes to the held file.
-/

namespace Provision

open Disk (LeadsTo Below FileSpot PutsFile HasFile Begins)

namespace Bundle

theorem isEntry_scriptFile : Path.IsEntry scriptFile :=
  ⟨⟨by simp [scriptFile], by decide, by decide⟩, ⟨by decide, by decide⟩, by decide⟩

theorem isEntry_notesFile : Path.IsEntry notesFile :=
  ⟨⟨by simp [notesFile], by decide, by decide⟩, ⟨by decide, by decide⟩, by decide⟩

/-- The files of every bundle. -/
def files : List String := [Save.recipeFile, scriptFile, notesFile]

theorem ne_of_mem_files {name : String} (h : name ∈ files) : name ≠ ".." ∧ name ≠ Save.assetsDir := by
  simp only [files, List.mem_cons, List.not_mem_nil, or_false] at h
  rcases h with rfl | rfl | rfl <;> decide

theorem archive_not_mem_files (s : String) : s ++ ".tar.gz" ∉ files ∧ s ++ ".tar.gz" ≠ ".." := by
  have hlast : (s ++ ".tar.gz").toList.getLast? = some 'z' := by
    rw [String.toList_append, List.getLast?_append_of_ne_nil _ (by decide)]
    decide
  have hne : ∀ t : String, t.toList.getLast? ≠ some 'z' → s ++ ".tar.gz" ≠ t := by
    rintro t ht rfl
    exact ht hlast
  simp only [files, List.mem_cons, List.not_mem_nil, or_false, not_or]
  exact ⟨⟨hne _ (by decide), hne _ (by decide), hne _ (by decide)⟩, hne _ (by decide)⟩

section

variable {d d' : Disk} {target q : Path} {place : List String} {name : String} {u : Unit} {troubles : Disk.Troubles}

theorem below_of_copy {p source : Path} (hs : source.name = "" ∨ Path.IsSingle source.name) (hdots : source.name ≠ "..")
    (h : p = (target.child Save.assetsDir).child source.name ∨
      p = ((target.child Save.assetsDir).child source.name).child source.name) :
    (∃ more, Below target (Save.assetsDir :: more) p) ∧ (target.Clean → p.Clean) := by
  have hassets : Below target [Save.assetsDir] (target.child Save.assetsDir) :=
    (Below.refl target).child Save.isEntry_assetsDir.single (by decide)
  -- Each name that is added is empty, which leads nowhere, or a plain one.
  have hstep : ∀ {more p}, Below target (Save.assetsDir :: more) p →
      ∃ more', Below target (Save.assetsDir :: more') (p.child source.name) := by
    intro more p hp
    rcases hs with hs | hs
    · rw [hs]
      exact ⟨more, hp.child_empty⟩
    · exact ⟨more ++ [source.name], hp.child hs hdots⟩
  obtain ⟨more, hmore⟩ := hstep hassets
  rcases h with rfl | rfl
  · exact ⟨⟨more, hmore⟩, fun hc => (hc.child _).child _⟩
  · exact ⟨hstep hmore, fun hc => ((hc.child _).child _).child _⟩

theorem putsFile_of_copyFile (hs : q.name = "" ∨ Path.IsSingle q.name)
    (h : (Disk.copyFile q ((target.child Save.assetsDir).child q.name)).run d = (.ok u, d')) :
    ∃ p more place source mode c, Below target (Save.assetsDir :: more) p ∧ (target.Clean → p.Clean) ∧
      d.Finds q (.found source (.file mode c)) ∧ PutsFile p place mode c d d' := by
  obtain ⟨p, place, mode, c, htarget, ⟨s, hsource⟩, hput⟩ := Disk.copyFile_eq_ok h
  obtain ⟨⟨more, hb⟩, hclean⟩ := below_of_copy hs (Disk.name_ne_dots hsource) htarget
  exact ⟨p, more, place, s, mode, c, hb, hclean, hsource, hput⟩

/-- Copying a file into the directory for assets leaves the disk, or puts its content or a beginning of that below. -/
theorem copyFile_puts (hs : q.name = "" ∨ Path.IsSingle q.name) (d : Disk) :
    ((Disk.copyFile q ((target.child Save.assetsDir).child q.name) troubles).run d).2 = d ∨
      ∃ p more place source mode mode' c c', Below target (Save.assetsDir :: more) p ∧
        d.Finds q (.found source (.file mode c)) ∧ Begins troubles c' c ∧ PutsFile p place mode' c' d
          ((Disk.copyFile q ((target.child Save.assetsDir).child q.name) troubles).run d).2 := by
  rcases Disk.copyFile_cases q ((target.child Save.assetsDir).child q.name) d with ⟨e, hrun⟩ |
    ⟨p, place, mode, mode', c, c', result, htarget, ⟨s, hsource⟩, hc, hrun, hspot, -⟩
  · exact .inl (by rw [hrun])
  · obtain ⟨⟨more, hb⟩, -⟩ := below_of_copy hs (Disk.name_ne_dots hsource) htarget
    exact .inr ⟨p, more, place, s, mode, mode', c, c', hb, hsource, hc, hspot, by rw [hrun]⟩

section

variable {R : Disk → Disk → Prop} (hrefl : ∀ d, R d d)
  (htrans : ∀ {d d' d'' : Disk}, R d d' → R d' d'' → R d d'')
  (hcopy : ∀ {d d' : Disk} {q : Path}, (q.name = "" ∨ Path.IsSingle q.name) →
    (Disk.copyFile q ((target.child Save.assetsDir).child q.name)).run d = (.ok (), d') → R d d')

include hrefl htrans hcopy

theorem rel_copyAll {qs : List Path} (hs : ∀ q ∈ qs, q.name = "" ∨ Path.IsSingle q.name)
    (h : (Store.copyAll (target.child Save.assetsDir) qs).run d = (.ok u, d')) : R d d' := by
  induction qs generalizing d with
  | nil =>
    cases h
    exact hrefl _
  | cons q qs ih =>
    obtain ⟨_, d₁, h1, h2⟩ := run_bind_eq_ok.1 h
    exact htrans (hcopy (hs q List.mem_cons_self) h1) (ih (fun q' hq' => hs q' (List.mem_cons_of_mem q hq')) h2)

theorem rel_copyFiles {s : Store} {id : String}
    (h : (Store.copyFiles (s.assetsPath id) (target.child Save.assetsDir)).run d = (.ok u, d')) : R d d' := by
  obtain ⟨b, d₁, h1, h2⟩ := run_bind_eq_ok.1 h
  obtain rfl := (Disk.readOnly_isDir _).run_eq h1
  cases b with
  | false =>
    cases h2
    exact hrefl d
  | true =>
    obtain ⟨es, d₂, h3, h4⟩ := run_bind_eq_ok.1 h2
    obtain rfl := (Disk.readOnly_list _).run_eq h3
    refine rel_copyAll hrefl htrans hcopy (fun q hmem => ?_) h4
    obtain ⟨e, -, rfl⟩ := List.mem_map.1 hmem
    refine Path.single_name_child (.inr ?_) e.1
    rw [Store.assetsPath, Path.name_child _ Save.isEntry_assetsDir.single]
    exact Save.isEntry_assetsDir.single

end

theorem keeps_copyFile (hname : name ∈ files) (hq : d.LeadsTo target place)
    (hs : q.name = "" ∨ Path.IsSingle q.name)
    (h : (Disk.copyFile q ((target.child Save.assetsDir).child q.name)).run d = (.ok u, d')) :
    Disk.Keeps (place ++ [name]) d d' := by
  obtain ⟨p, more, spot, source, mode, c, hbelow, -, -, hput⟩ := putsFile_of_copyFile hs h
  refine hput.keeps ?_
  rw [hput.spot.place_of_below hq hbelow]
  intro he
  have := List.append_cancel_left he
  exact (ne_of_mem_files hname).2 (List.cons.inj this).1.symm

theorem keeps_copyFiles {s : Store} {id : String} (hname : name ∈ files)
    (hq : d.LeadsTo target place)
    (h : (Store.copyFiles (s.assetsPath id) (target.child Save.assetsDir)).run d = (.ok u, d')) :
    Disk.Keeps (place ++ [name]) d d' :=
  rel_copyFiles (R := fun d d' => d.LeadsTo target place → Disk.Keeps (place ++ [name]) d d')
    (fun d _ => .refl _ d) (fun h h' hq => (h hq).trans (h' (hq.of_keeps (h hq))))
    (fun hs h hq => keeps_copyFile hname hq hs h) h hq

theorem hasFile_of_writeText {text : String} {mode : Nat} (hq : d.LeadsTo target place)
    (hs : Path.IsSingle name) (hd : name ≠ "..")
    (h : (do
      Disk.writeText (target.child name) text
      Disk.chmod (target.child name) mode : DiskM Unit).run d = (.ok u, d')) :
    d'.HasFile (target.child name) (place ++ [name]) (.bytes text.toUTF8) ∧
      ∀ l, l ≠ place ++ [name] → Disk.Keeps l d d' := by
  obtain ⟨_, d₁, h1, h2⟩ := run_bind_eq_ok.1 h
  obtain ⟨spot, mode₁, hput⟩ := Disk.putsFile_of_write h1
  obtain rfl : spot = place ++ [name] := hput.spot.place_of_below hq ((Below.refl target).child hs hd)
  have hfile := hput.hasFile
  rcases Disk.chmod_eq_ok h2 with rfl | ⟨spot', mode₂, c, hfound, heq⟩
  · exact ⟨hfile, fun l hl => hput.keeps hl.symm⟩
  · obtain ⟨mode₃, hfile⟩ := hfile
    cases hfile.unique hfound
    have hput' : PutsFile (target.child name) (place ++ [name]) mode (.bytes text.toUTF8) d₁ d' :=
      ⟨.inr ⟨_, _, hfound⟩, heq⟩
    exact ⟨hput'.hasFile, fun l hl => (hput.keeps hl.symm).trans (hput'.keeps hl.symm)⟩

theorem keeps_writeArchive {c : Content} (hname : name ∈ files)
    (h : (Disk.write (archivePath target) c).run d = (.ok u, d')) :
    Disk.Keeps (place ++ [name]) d d' := by
  obtain ⟨spot, mode, hput⟩ := Disk.putsFile_of_write h
  obtain ⟨har, hdots⟩ := archive_not_mem_files target.name
  refine hput.keeps ?_
  obtain ⟨sp, hfinds, rfl⟩ := hput.spot.finds
  obtain ⟨l, es, -, -, rfl⟩ := Disk.walk_concat hdots hfinds.leads
  intro he
  have hplace : ∀ (es : List (String × Node)) (x : String),
      (Disk.entrySpot l es x).place = l ++ [x] := by
    intro es x
    unfold Disk.entrySpot
    split <;> rfl
  rw [hplace] at he
  have hlast := (List.append_inj' he rfl).2
  exact har ((List.cons.inj hlast).1 ▸ hname)

theorem keeps_pack {path : Path} (hname : name ∈ files)
    (h : (pack target).run d = (.ok path, d')) : Disk.Keeps (place ++ [name]) d d' := by
  rw [pack] at h
  split at h
  · cases h
  · obtain ⟨_, d₁, h1, h2⟩ := run_bind_eq_ok.1 h
    obtain ⟨ms, d₂, h3, h4⟩ := run_bind_eq_ok.1 h2
    obtain rfl := (Disk.readOnly_members target).run_eq h3
    obtain ⟨_, d₃, h5, h6⟩ := run_bind_eq_ok.1 h4
    cases h6
    exact (keeps_writeArchive hname h1).trans (keeps_writeArchive hname h5)

end

end Bundle

end Provision
