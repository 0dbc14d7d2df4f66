import Provision.Bundle.Export
import Provision.Proofs.Disk.Replacing
import Provision.Proofs.Store.Names

/-!
# Filling a directory

What a directory holds while files are put into it one after the other (`Holds`): each new file is one more
entry (`Holds.write`), and the files of another directory that are copied are as many (`Holds.copyFiles`).
-/

namespace Provision

open Disk (Finds Spares Below PutsFile)

/-- The files in the directory that the path leads to, in the order of their names. -/
def Store.filesIn (d : Disk) (p : Path) : List (String × Node) :=
  match d.shown p with
  | .ok (.dir es) => fileEntries (sortByKey es)
  | _ => []

namespace Disk

/-- The path leads to a directory with just these entries, and no file in it is held open. -/
structure Holds (d : Disk) (p : Path) (l : List String) (es : List (String × Node)) : Prop where
  finds : d.Finds p (.found l (.dir es))
  held : ∀ t, d.held = some t → ¬ l <+: t

variable {d d' : Disk} {p q : Path} {l place t : List String} {es es' : List (String × Node)}
  {name : String} {c : Content} {mode : Nat} {m : Option Node} {n : Node} {u : Unit}

theorem Finds.entry_cases {spot : Spot} (h : d.Finds p (.found l (.dir es))) (hs : Path.IsSingle name)
    (hd : name ≠ "..") (hf : d.Finds (p.child name) spot) :
    (∃ n, es.lookup name = some n ∧ spot = .found (l ++ [name]) n) ∨
      es.lookup name = none ∧ spot = .absent (l ++ [name]) := by
  have hw := hf.leads
  rw [Path.start_child d p hs, Path.names_child p hs] at hw
  obtain ⟨l', es', hl', -, hspot⟩ := walk_concat hd hw
  cases h.leads.symm.trans hl'
  rw [entrySpot] at hspot
  split at hspot
  · rename_i n hn
    exact .inl ⟨n, hn, hspot⟩
  · rename_i hn
    exact .inr ⟨hn, hspot⟩

theorem Finds.putsFile_of_write (h : d.Finds p (.found l (.dir es))) (hs : Path.IsSingle name) (hd : name ≠ "..")
    (hw : (Disk.write (p.child name) c mode).run d = (.ok u, d')) :
    ∃ mode', PutsFile (p.child name) (l ++ [name]) mode' c d d' ∧
      (mode' = mode ∨ ∃ c', d.root.get? (l ++ [name]) = some (.file mode' c')) := by
  obtain ⟨spot, hf, hw⟩ := find_bind_eq_ok hw
  rcases h.entry_cases hs hd hf with ⟨n, -, rfl⟩ | ⟨-, rfl⟩
  · cases n with
    | dir es => cases hw
    | file mode' c' =>
      cases hw
      exact ⟨mode', ⟨.inr ⟨_, _, hf⟩, rfl⟩, .inr ⟨c', get_of_walk hf.leads⟩⟩
  · cases hw
    exact ⟨mode, ⟨.inl hf, rfl⟩, .inl rfl⟩

namespace Holds

theorem leadsTo (h : d.Holds p l es) : d.LeadsTo p l := ⟨es, h.finds.leads⟩

theorem of_spares (h : d.Holds p l es) (hs : Spares l d d') : d'.Holds p l es := by
  refine ⟨h.finds.of_spares hs, fun t ht => ?_⟩
  rcases hs.held t ht with ht | ht
  · exact h.held t ht
  · exact ht

theorem setAt (h : d.Holds p l es) (hno : d.root.NoDirAt (l ++ t)) (ht : t ≠ [])
    (hes : (Node.dir es).set m t = .dir es') : (d.setAt (l ++ t) m).Holds p l es' :=
  ⟨h.finds.setAt_below hno ht hes, h.held⟩

theorem write (h : d.Holds p l es) (hs : Path.IsSingle name) (hd : name ≠ "..")
    (hnew : name ∉ es.map (·.1)) (hw : (Disk.write (p.child name) c mode).run d = (.ok u, d')) :
    d'.Holds p l (es ++ [(name, .file mode c)]) ∧ ∀ l', Apart l l' → Spares l' d d' := by
  obtain ⟨spot, hf, hw⟩ := find_bind_eq_ok hw
  rcases h.finds.entry_cases hs hd hf with ⟨n, hn, rfl⟩ | ⟨hn, rfl⟩
  · rw [lookup_eq_none.2 hnew] at hn
    cases hn
  · cases hw
    have hno := FileSpot.noDirAt (.inl hf)
    refine ⟨h.setAt hno (List.cons_ne_nil _ _) ?_, fun l' hl' => spares_setAt _ hno (hl'.append _)⟩
    rw [Node.set_entry, put_of_not_mem _ hnew]

theorem chmod {mode' : Nat} (h : d.Holds p l es) (hs : Path.IsSingle name) (hd : name ≠ "..")
    (hfile : es.lookup name = some (.file mode' c))
    (hc : (Disk.chmod (p.child name) mode).run d = (.ok u, d')) :
    d'.Holds p l (put name (.file mode c) es) := by
  obtain ⟨spot, hf, hc⟩ := find_bind_eq_ok hc
  rcases h.finds.entry_cases hs hd hf with ⟨n, hn, rfl⟩ | ⟨hn, rfl⟩
  · cases hfile.symm.trans hn
    cases hc
    exact h.setAt (FileSpot.noDirAt (.inr ⟨_, _, hf⟩)) (List.cons_ne_nil _ _) (Node.set_entry es name _)
  · cases hfile.symm.trans hn

theorem writeText {text : String} (h : d.Holds p l es) (hs : Path.IsSingle name) (hd : name ≠ "..")
    (hnew : name ∉ es.map (·.1))
    (hw : (do
      Disk.writeText (p.child name) text
      Disk.chmod (p.child name) mode : DiskM Unit).run d = (.ok u, d')) :
    d'.Holds p l (es ++ [(name, .file mode (.bytes text.toUTF8))]) := by
  obtain ⟨_, d₁, hw, hc⟩ := run_bind_eq_ok.1 hw
  have h₁ := (h.write hs hd hnew hw).1
  rw [← put_of_not_mem _ hnew] at h₁
  have h₂ := h₁.chmod hs hd (by rw [lookup_put, if_pos rfl]) hc
  rwa [put_put, put_of_not_mem _ hnew] at h₂

section

variable {sub : String} {as src xs : List (String × Node)} {source : List String} (hsub : Path.IsEntry sub)
  (hapart : Apart l source)

include hsub hapart

theorem copyFile (h : d.Holds p l es) (has : es.lookup sub = some (.dir as))
    (hq : d.Finds q (.found source (.dir src))) (hn : Path.IsEntry name) (hnew : name ∉ as.map (·.1))
    (hsrc : src.lookup name = some n)
    (hc : (Disk.copyFile (q.child name) ((p.child sub).child name)).run d = (.ok u, d')) :
    d'.Holds p l (put sub (.dir (as ++ [(name, n)])) es) ∧ d'.Finds q (.found source (.dir src)) := by
  obtain ⟨target, place, mode, c, htarget, ⟨s, hs⟩, hput⟩ := copyFile_eq_ok hc
  rw [Path.name_child _ hn.single] at htarget
  obtain rfl : n = .file mode c := by
    rcases hq.entry_cases hn.single hn.plain.ne_dots hs with ⟨n', hn', he⟩ | ⟨-, he⟩
    · cases he
      exact Option.some.inj (hsrc.symm.trans hn')
    · cases he
  have hget : d.root.get? l = some (.dir es) := get_of_walk h.finds.leads
  have hbelow : Below p [sub, name] ((p.child sub).child name) :=
    ((Below.refl p).child hsub.single hsub.plain.ne_dots).child hn.single hn.plain.ne_dots
  rcases htarget with rfl | rfl
  · obtain rfl := hput.spot.place_of_below h.leadsTo hbelow
    have hno := hput.spot.noDirAt
    rw [hput.eq]
    refine ⟨h.setAt hno (List.cons_ne_nil _ _) ?_, hq.of_spares (spares_setAt _ hno (hapart.append _))⟩
    rw [Node.set_below has (List.cons_ne_nil _ _), Node.set_entry, put_of_not_mem _ hnew]
  · -- There is no directory of that name to copy the file into.
    obtain ⟨l', ⟨es', hl'⟩, -⟩ := leadsTo_of_child hn.single hn.plain.ne_dots hput.spot
    obtain rfl : l' = l ++ [sub, name] := place_of_below h.leadsTo hbelow hl'
    have hnone : d.root.get? (l ++ [sub, name]) = none := by
      have hsplit : l ++ [sub, name] = l ++ [sub] ++ [name] := by simp
      rw [hsplit, Node.get_concat_of_dir ((Node.get_concat_of_dir hget sub).trans has),
        lookup_eq_none.2 hnew]
    cases hnone.symm.trans (get_of_walk hl')

theorem copyAll (h : d.Holds p l es) (has : es.lookup sub = some (.dir as))
    (hq : d.Finds q (.found source (.dir src))) (hkeyed : IsKeyed (as ++ xs))
    (hxs : ∀ x ∈ xs, Path.IsEntry x.1 ∧ src.lookup x.1 = some x.2)
    (hc : (Store.copyAll (p.child sub) (xs.map fun (name, _) => q.child name)).run d = (.ok u, d')) :
    d'.Holds p l (put sub (.dir (as ++ xs)) es) := by
  induction xs generalizing d as es with
  | nil =>
    cases hc
    rwa [List.append_nil, put_self has]
  | cons x xs ih =>
    obtain ⟨name, n⟩ := x
    obtain ⟨hn, hsrc⟩ := hxs _ List.mem_cons_self
    obtain ⟨_, d₁, hc, hrest⟩ := run_bind_eq_ok.1 hc
    rw [Path.name_child _ hn.single] at hc
    have hnew : name ∉ as.map (·.1) := not_mem_of_isKeyed_append hkeyed
    obtain ⟨h₁, hq₁⟩ := copyFile hsub hapart h has hq hn hnew hsrc hc
    have hsplit : as ++ (name, n) :: xs = as ++ [(name, n)] ++ xs := by simp
    rw [hsplit] at hkeyed ⊢
    have h₂ := ih h₁ (by rw [lookup_put, if_pos rfl]) hq₁ hkeyed
      (fun x hx => hxs x (List.mem_cons_of_mem _ hx)) hrest
    rwa [put_put] at h₂

end

theorem copyFiles {sub : String} (hsub : Path.IsEntry sub) (h : d.Holds p l es)
    (has : es.lookup sub = some (.dir [])) (hnul : q.hasNul = false)
    (hq : ∀ source src, d.Finds q (.found source (.dir src)) →
      Apart l source ∧ IsKeyed src ∧ ∀ x ∈ src.map (·.1), Path.IsEntry x)
    (hc : (Store.copyFiles q (p.child sub)).run d = (.ok u, d')) :
    d'.Holds p l (put sub (.dir (Store.filesIn d q)) es) := by
  obtain ⟨b, d₁, hdir, hc⟩ := run_bind_eq_ok.1 hc
  obtain rfl := (readOnly_isDir q).run_eq hdir
  cases b with
  | true =>
    obtain ⟨source, src, hfinds⟩ := isDir_eq_true hnul hdir
    obtain ⟨hapart, hkeyed, hnames⟩ := hq source src hfinds
    obtain ⟨xs, d₂, hlist, hc⟩ := run_bind_eq_ok.1 hc
    rw [run_list hfinds] at hlist
    cases hlist
    rw [Store.filesIn, hfinds.shown]
    have hcopied : IsKeyed ([] ++ Store.fileEntries (sortByKey src)) :=
      (isKeyed_sortByKey.2 hkeyed).sublist (List.filter_sublist.map _)
    refine copyAll hsub hapart h has hfinds hcopied (fun x hx => ?_) hc
    have hmem := mem_sortByKey.1 (List.mem_of_mem_filter hx)
    exact ⟨hnames _ (List.mem_map_of_mem hmem), lookup_of_mem hkeyed hmem⟩
  | false =>
    cases hc
    have hnone : Store.filesIn d q = [] := by
      unfold Store.filesIn
      split
      · rename_i src hshown
        obtain ⟨source, hfinds⟩ := finds_of_shown hnul hshown
        cases (run_isDir_found hfinds).symm.trans hdir
      · rfl
    rwa [hnone, put_self has]

end Holds

end Disk

end Provision
