import Provision.Proofs.Store.Saving
import Provision.Proofs.Store.Tree

/-!
# Changes to the tree of a store

What the operations of a store do to its tree: the directories of a project are made where they are
missing (`Holds.makeDirs`), a recipe is saved through a temporary file that is gone afterwards
(`Holds.save`), and a file is written in place of one of its name (`Holds.saveFile`).
-/

namespace Provision

namespace Store

variable {s : Store} {id filename : String} {d d' : Disk} {place : List String}
  {es : List (String × Node)} {m : Ledger} {rec : Record} {d₁ : Disk}

theorem Holds.makeDirs (h : Holds s place m.entries d')
    (hmade : (Disk.makeDirs s.root).run d = (.ok (), d')) (hid : IsEntryName id) :
    ∃ d₂, (Disk.makeDirs (s.assetsPath id)).run d = (.ok (), d₂) ∧
      Holds s place (put id (m.record id).node m.entries) d₂ := by
  have hroom := room_entry h.room hid
  have hproject : (Disk.makeDirs (s.entryPath id)).run d = (Disk.mkdirOk (s.entryPath id)).run d' :=
    Disk.run_makeDirs_child hmade h.room hid.isEntry hroom
  cases hl : m.records.lookup id with
  | none =>
    have hnone : m.entries.lookup id = none := by rw [m.lookup_entries, hl]; rfl
    have habsent := h.entry_none hid hnone
    rw [Disk.run_mkdirOk_absent habsent] at hproject
    have h₁ : Holds s place (put id (.dir []) m.entries) (d'.setAt (place ++ [id]) (some (.dir []))) :=
      h.setAt (Disk.FileSpot.noDirAt (.inl habsent)) (List.cons_ne_nil id [])
        (Node.set_entry m.entries id (.dir []))
    have hfound := h₁.entry_some hid (by rw [lookup_put, if_pos rfl])
    have hassets := hfound.entry_none Save.isEntry_assetsDir (room_assets h.room hid) rfl
    refine ⟨_, (Disk.run_makeDirs_child hproject hroom Save.isEntry_assetsDir (room_assets h.room hid)).trans
      (Disk.run_mkdirOk_absent hassets), ?_⟩
    rw [Ledger.record_of_none hl]
    exact h₁.setBelow (Disk.FileSpot.noDirAt (.inl hassets)) (List.cons_ne_nil _ _)
      (Node.set_entry [] Save.assetsDir (.dir []))
  | some rec =>
    have hsome : m.entries.lookup id = some rec.node := by rw [m.lookup_entries, hl]; rfl
    rw [Disk.run_mkdirOk_found (h.entry_some hid hsome)] at hproject
    refine ⟨d', (Disk.run_makeDirs_child hproject hroom Save.isEntry_assetsDir (room_assets h.room hid)).trans
      (Disk.run_mkdirOk_found (h.assets hid hsome)), ?_⟩
    rw [Ledger.record_of_lookup hl, put_self hsome]
    exact h

theorem Holds.recipeSpot {es₀ : List (String × Node)} (h : Holds s place (put id (.dir es) es₀) d)
    (hid : IsEntryName id)
    (hes : ∀ n, es.lookup Save.recipeFile = some n → ∃ mode c, n = .file mode c) :
    d.FileSpot (s.recipePath id) (place ++ [id] ++ [Save.recipeFile]) := by
  have hentry := h.entry_some hid (n := .dir es) (by rw [lookup_put, if_pos rfl])
  cases hl : es.lookup Save.recipeFile with
  | none => exact .inl (hentry.entry_none Save.isEntry_recipeFile (room_recipe h.room hid) hl)
  | some n =>
    obtain ⟨mode, c, rfl⟩ := hes n hl
    exact .inr ⟨mode, c, hentry.entry_some Save.isEntry_recipeFile (room_recipe h.room hid) hl⟩

theorem Holds.save (h : Holds s place (put id rec.node es) d₁) (hid : IsEntryName id)
    (hdirs : (Disk.makeDirs (s.assetsPath id)).run d = (.ok (), d₁)) (r : Recipe) :
    ∃ d₂, (Save.mk (s.entryPath id) (.ok r.fileText)).run .none d = (.ok (), d₂) ∧
      Holds s place (put id { rec with recipe := some r }.node es) d₂ := by
  have hfile : ∀ n, rec.entries.lookup Save.recipeFile = some n → ∃ mode c, n = .file mode c := by
    intro n hn
    rw [Record.lookup_recipe] at hn
    obtain ⟨r', -, rfl⟩ := Option.map_eq_some_iff.1 hn
    exact ⟨_, _, rfl⟩
  have hfresh : Disk.tempName ∉ rec.entries.map (·.1) := Record.tempName_not_mem
  -- The temporary file is made and filled,
  obtain ⟨hroom, hentry⟩ := h.absolute hid (n := rec.node) (by rw [lookup_put, if_pos rfl])
  have hroomTemp : ((d₁.absolute (s.entryPath id)).child Disk.tempName).Room 0 :=
    (hroom.mono (by decide)).child Disk.isEntry_tempName
  have htemp := Disk.run_createTemp hentry hroomTemp hfresh
  have habsent := hentry.entry_none Disk.isEntry_tempName hroomTemp (lookup_eq_none.2 hfresh)
  have h₂ := h.setBelow (Disk.FileSpot.noDirAt (.inl habsent)) (List.cons_ne_nil _ _)
    (Node.set_entry rec.entries Disk.tempName (.file 0o600 (.bytes .empty)))
  have hempty := ((h₂.absolute hid (by rw [lookup_put, if_pos rfl])).2).entry_some
    Disk.isEntry_tempName hroomTemp (by rw [lookup_put, if_pos rfl])
  have hwrite := Disk.run_write_found hempty (.bytes r.fileText.toUTF8) 0o644
  have h₃ := h₂.setBelow (Disk.FileSpot.noDirAt (.inr ⟨_, _, hempty⟩)) (List.cons_ne_nil _ _)
    (Node.set_entry _ Disk.tempName (.file 0o600 (.bytes r.fileText.toUTF8)))
  rw [put_put] at h₃
  -- then it is moved over the recipe.
  have hfull := ((h₃.absolute hid (by rw [lookup_put, if_pos rfl])).2).entry_some
    Disk.isEntry_tempName hroomTemp (by rw [lookup_put, if_pos rfl])
  have hspot := h₃.recipeSpot hid fun n hn => by
    rw [lookup_put, if_neg (by decide)] at hn
    exact hfile n hn
  have hne : place ++ [id] ++ [Disk.tempName] ≠ place ++ [id] ++ [Save.recipeFile] := by
    rw [Ne, List.append_cancel_left_eq]
    decide
  have hpre : ∀ x : String, place <+: place ++ [id] ++ [x] := fun x => ⟨[id, x], by simp⟩
  have hmove := Disk.run_rename hfull hspot hne (fun he => h₃.held _ he (hpre _))
    fun l hl hp => h₃.held l hl ((hpre _).trans hp)
  have h₄ := h₃.setBelow (Disk.FileSpot.noDirAt (.inr ⟨_, _, hfull⟩)) (List.cons_ne_nil _ _)
    (congrArg Node.dir (Node.setEntry_none_put _ hfresh))
  have h₅ := h₄.setBelow (h₄.recipeSpot hid hfile).noDirAt (List.cons_ne_nil _ _)
    (Node.set_entry rec.entries Save.recipeFile (.file 0o600 (.bytes r.fileText.toUTF8)))
  rw [Record.put_recipe] at h₅
  exact ⟨_, Save.run_eq_ok hdirs rfl htemp hwrite hmove, h₅⟩

theorem Holds.saveFile (h : Holds s place (put id rec.node es) d) (hid : IsEntryName id)
    (hf : IsEntryName filename) (bytes : ByteArray) :
    ∃ d₂, (Disk.write ((s.assetsPath id).child filename) (.bytes bytes)).run d = (.ok (), d₂) ∧
      Holds s place (put id { rec with files := put filename bytes rec.files }.node es) d₂ := by
  have hlookup : (put id rec.node es).lookup id = some rec.node := by rw [lookup_put, if_pos rfl]
  have hassets := h.assets hid hlookup
  have hroom := room_file h.room hid hf
  have hset : (Node.dir rec.entries).set (some (.file 0o644 (.bytes bytes)))
      [Save.assetsDir, filename] = { rec with files := put filename bytes rec.files }.node := by
    rw [Node.set_below Record.lookup_assets (List.cons_ne_nil _ _), Record.filesNode, Node.set_entry,
      Record.put_files]
    rfl
  have hplace : place ++ [id] ++ [Save.assetsDir] ++ [filename] =
      place ++ [id] ++ [Save.assetsDir, filename] := by simp
  have hfiles := lookup_map (fun bytes : ByteArray => Node.file 0o644 (.bytes bytes)) filename rec.files
  cases hb : rec.files.lookup filename with
  | none =>
    rw [hb] at hfiles
    have hspot := hassets.entry_none hf.isEntry hroom hfiles
    have hno := Disk.FileSpot.noDirAt (.inl hspot)
    refine ⟨_, Disk.run_write_absent hspot _ _, ?_⟩
    rw [hplace] at hno ⊢
    exact h.setBelow hno (List.cons_ne_nil _ _) hset
  | some b =>
    rw [hb] at hfiles
    have hspot := hassets.entry_some hf.isEntry hroom hfiles
    have hno := Disk.FileSpot.noDirAt (.inr ⟨_, _, hspot⟩)
    refine ⟨_, Disk.run_write_found hspot _ _, ?_⟩
    rw [hplace] at hno ⊢
    exact h.setBelow hno (List.cons_ne_nil _ _) hset

end Store

end Provision
