import Provision.Proofs.Store.Failing
import Provision.Proofs.Web.Orphans

/-!
# Uploads of several files

The files of an upload are stored one after the other, until one of them cannot be. Each that is stored replaces what
had its name and touches nothing else (`Stored`), so several in a row leave the last bytes of each name
(`Stored.append`). An upload is answered well exactly if all of its files are stored. Otherwise those before the first
that cannot be stored are there nevertheless (`upload_stores_prefix`, `upload_stores_first`).
-/

namespace Provision

open Provision.Bundle (OnWay)
open Disk (Footprint OnlyMakes)

namespace Store

variable {s : Store} {d : Disk} {w w₁ w' : Workspace} {id filename : String} {bytes : List UInt8} {path : Path}
  {f : Failure} {files more : List (String × List UInt8)} {troubles : Disk.Troubles}

/-- Where a file of a project is stored. -/
def placeOfFile (s : Store) (d : Disk) (id filename : String) : List String :=
  d.placeOf ((s.assetsPath id).child filename)

/-- Files have been stored for a project, in this order: each name has the bytes that came last, with nothing behind
them but what is logged there. All else stands, and directories may have come on the way. -/
structure Stored (s : Store) (id : String) (files : List (String × List UInt8)) (w w' : Workspace) : Prop where
  named : ∀ x ∈ files, isName x.1 = true ∧ x.1 ≠ "."
  footprint : Footprint (fun l => ∃ x ∈ files, l = s.placeOfFile w.disk id x.1) (OnWay w.disk (s.assetsPath id))
    w.disk w'.disk
  holds : ∀ name bytes, files.reverse.lookup name = some bytes → ∃ mode,
    Node.Stands False (w.disk.held = some (s.placeOfFile w.disk id name)) (some (.file mode (.bytes ⟨bytes.toArray⟩)))
      (w'.disk.root.get? (s.placeOfFile w.disk id name))

theorem placeOfFile_eq (s : Store) (d : Disk) (id : String) (hname : isName filename = true) (hdot : filename ≠ ".") :
    s.placeOfFile d id filename = d.placeOf (s.assetsPath id) ++ [filename] := by
  obtain ⟨hs, hd⟩ := single_of_isName hname hdot
  exact Disk.placeOf_below ((Disk.Below.refl _).child hs hd)

theorem ne_dot_of_putsFile {u : Unit} {d₁ d₂ : Disk} {place : List String} {mode : Nat} {c : Content}
    (hdirs : (Disk.makeDirs (s.assetsPath id) troubles).run d = (.ok u, d₁))
    (hput : Disk.PutsFile ((s.assetsPath id).child filename) place mode c d₁ d₂) : filename ≠ "." := by
  rintro rfl
  obtain ⟨l, es, hfound⟩ := Disk.finds_of_makeDirs hdirs
  have hspot := hput.spot
  rw [Path.child_dot] at hspot
  exact not_fileSpot_of_dir hfound hspot

theorem Stored.of_putsFile {d₁ d₂ : Disk} {u : Unit} {place : List String} {mode : Nat}
    (hname : isName filename = true) (hdirs : (Disk.makeDirs (s.assetsPath id) troubles).run w.disk = (.ok u, d₁))
    (hput : Disk.PutsFile ((s.assetsPath id).child filename) place mode (.bytes ⟨bytes.toArray⟩) d₁ d₂)
    (hlogged : OnlyMakes (OnWay w.disk (s.assetsPath id)) d₂ w'.disk) : Stored s id [(filename, bytes)] w w' := by
  have hmade : OnlyMakes (OnWay w.disk (s.assetsPath id)) w.disk d₁ := by
    have hmakes := onlyMakes_makeDirs (s.assetsPath id) w.disk troubles
    rwa [hdirs] at hmakes
  have hplace : place = s.placeOfFile w.disk id filename :=
    hput.spot.eq_placeOf.trans (Disk.placeOf_of_cwd hmade.cwd _)
  have hget : d₂.root.get? place = some (.file mode (.bytes ⟨bytes.toArray⟩)) := by
    rw [hput.eq]
    exact hput.spot.get_setAt _
  have hheld : d₂.held = d₁.held := by
    rw [hput.eq]
    rfl
  refine ⟨List.forall_mem_singleton.2 ⟨hname, ne_dot_of_putsFile hdirs hput⟩, ?_, fun name bytes' hlast => ?_⟩
  · have hwritten : Footprint (fun l => ∃ x ∈ [(filename, bytes)], l = s.placeOfFile w.disk id x.1)
        (OnWay w.disk (s.assetsPath id)) d₁ d₂ := by
      rw [hput.eq]
      exact .of_fileSpot hput.spot ⟨_, List.mem_singleton_self _, hplace⟩
    exact (hmade.mono fun _ => False.elim).trans (hwritten.trans (hlogged.mono fun _ => False.elim))
  · obtain ⟨rfl, rfl⟩ : name = filename ∧ bytes' = bytes := by
      have hmem := mem_of_lookup hlast
      simpa using hmem
    refine ⟨mode, ?_⟩
    have hstands := hlogged.stands_at place
    rw [hget] at hstands
    rw [← hplace]
    exact hstands.of_some_file fun hl => hmade.held place (hheld ▸ hl)

theorem Stored.of_onlyMakes (h : OnlyMakes (OnWay w.disk (s.assetsPath id)) w.disk w'.disk) : Stored s id [] w w' :=
  ⟨by simp, h.mono fun _ => False.elim, nofun⟩

theorem Stored.of_saveAsset (h : (s.saveAsset id filename ⟨bytes.toArray⟩ troubles).run w = (.ok path, w')) :
    Stored s id [(filename, bytes)] w w' := by
  obtain ⟨hid, hname, d₁, d₂, hdirs, hwrite, -⟩ := saveAsset_eq_ok h
  cases h.symm.trans (run_saveAsset hid hname hdirs hwrite)
  obtain ⟨place, mode, hput⟩ := Disk.putsFile_of_write hwrite
  exact .of_putsFile hname hdirs hput (onlyMakes_emit { w with disk := d₂ }
    ⟨.info, logName, "Saved asset " ++ filename ++ " for project " ++ id⟩)

/-- What has come of a file that could not be stored: nothing, or a beginning of it. -/
def Torn (filename : String) (bytes : List UInt8) (files : List (String × List UInt8)) : Prop :=
  files = [] ∨ ∃ n, files = [(filename, bytes.take n)]

theorem begins_bytes {c : Content} (h : Disk.Begins troubles c (.bytes ⟨bytes.toArray⟩)) :
    ∃ n, c = .bytes ⟨(bytes.take n).toArray⟩ := by
  rcases h with rfl | ⟨-, -, n, -, -, rfl⟩
  · exact ⟨bytes.length, by rw [List.take_length]⟩
  · refine ⟨n, congrArg Content.bytes (ByteArray.ext ?_)⟩
    simp [Content.toBytes, ByteArray.data_extract]

/-- A file that is not stored leaves directories behind, and a beginning of it where the system broke it off. -/
theorem stored_of_saveAsset_error (h : (s.saveAsset id filename ⟨bytes.toArray⟩ troubles).run w = (.error f, w')) :
    ∃ left, Torn filename bytes left ∧ Stored s id left w w' := by
  by_cases hname : isName filename = true
  case neg =>
    cases h.symm.trans (run_bind_error (run_checkName_refused hname w))
    exact ⟨[], .inl rfl, .of_onlyMakes (.refl w.disk)⟩
  by_cases hid : isName id = true
  case neg =>
    rw [saveAsset, run_bind_ok (run_checkName hname w), ensureProjectDir, projectDir, bind_assoc, bind_assoc,
      run_bind_error (run_checkName_refused hid w)] at h
    cases h
    exact ⟨[], .inl rfl, .of_onlyMakes (.refl w.disk)⟩
  have hmakes := onlyMakes_makeDirs (s.assetsPath id) w.disk troubles
  rw [saveAsset, run_bind_ok (run_checkName hname w)] at h
  rcases hdirs : (Disk.makeDirs (s.assetsPath id) troubles).run w.disk with ⟨e | u, d₁⟩
  · rw [ensureProjectDir, run_bind_error (run_bind_ok (run_projectDir s hid w) |>.trans
      (run_bind_error (WorkM.run_onDisk_error hdirs)))] at h
    cases h
    rw [hdirs] at hmakes
    exact ⟨[], .inl rfl, .of_onlyMakes hmakes⟩
  · rw [run_bind_ok (run_ensureProjectDir hid hdirs)] at h
    rw [hdirs] at hmakes
    have hcases : ((Disk.write ((s.assetsPath id).child filename)
        (.bytes ⟨bytes.toArray⟩) 0o644 troubles).run d₁).2 = d₁ ∨ _ := Disk.write_cases _ _ _ _
    rcases hwrite : (Disk.write ((s.assetsPath id).child filename) (.bytes ⟨bytes.toArray⟩) 0o644 troubles).run d₁ with
      ⟨e | u, d₂⟩
    · rw [run_bind_error (WorkM.run_onDisk_error hwrite)] at h
      cases h
      rw [hwrite] at hcases
      rcases hcases with rfl | ⟨place, mode, c, hbegins, hput⟩
      · exact ⟨[], .inl rfl, .of_onlyMakes hmakes⟩
      · obtain ⟨n, rfl⟩ := begins_bytes hbegins
        exact ⟨[(filename, bytes.take n)], .inr ⟨n, rfl⟩, .of_putsFile hname hdirs hput (.refl _)⟩
    · rw [run_bind_ok (WorkM.run_onDisk_ok hwrite)] at h
      cases h

/-! ### Several files -/

theorem Stored.append (h : Stored s id files w w₁) (h' : Stored s id more w₁ w') :
    Stored s id (files ++ more) w w' := by
  have hplace : ∀ name, s.placeOfFile w₁.disk id name = s.placeOfFile w.disk id name := fun _ =>
    Disk.placeOf_of_cwd h.footprint.cwd _
  have hway : OnWay w₁.disk (s.assetsPath id) = OnWay w.disk (s.assetsPath id) := by
    funext l
    rw [OnWay, OnWay, Disk.start_of_cwd h.footprint.cwd]
  have hlater := h'.footprint
  simp only [hplace, hway] at hlater
  refine ⟨fun x hx => (List.mem_append.1 hx).elim (h.named x) (h'.named x), ?_, fun name bytes hlast => ?_⟩
  · refine (h.footprint.mono ?_).trans (hlater.mono ?_)
    · rintro l ⟨x, hx, rfl⟩
      exact ⟨x, List.mem_append_left _ hx, rfl⟩
    · rintro l ⟨x, hx, rfl⟩
      exact ⟨x, List.mem_append_right _ hx, rfl⟩
  · rw [List.reverse_append, List.lookup_append] at hlast
    cases hmore : more.reverse.lookup name with
    | some bytes' =>
      rw [hmore] at hlast
      obtain rfl : bytes' = bytes := Option.some.inj hlast
      obtain ⟨mode, hstands⟩ := h'.holds name bytes' hmore
      rw [hplace] at hstands
      exact ⟨mode, hstands.of_some_file (h.footprint.held _)⟩
    | none =>
      -- No file that is stored later has the name, so none is stored at its place.
      rw [hmore, Option.none_or] at hlast
      obtain ⟨mode, hstands⟩ := h.holds name bytes hlast
      have hname := h.named _ (List.mem_reverse.1 (mem_of_lookup hlast))
      have hapart : ¬ ∃ x ∈ more, s.placeOfFile w.disk id name = s.placeOfFile w.disk id x.1 := by
        rintro ⟨x, hx, heq⟩
        have hx' := h'.named x hx
        rw [placeOfFile_eq s w.disk id hname.1 hname.2, placeOfFile_eq s w.disk id hx'.1 hx'.2,
          List.append_cancel_left_eq, List.cons.injEq] at heq
        refine lookup_eq_none.1 hmore (List.mem_map.2 ⟨x, List.mem_reverse.2 hx, heq.1.symm⟩)
      have hkept := hlater.stands _ hapart
      exact ⟨mode, ((hstands.of_some_file fun hl => hl).trans hkept (h.footprint.held _)).of_some_file fun hl => hl⟩

end Store

namespace Web

variable {a : App} {q : Request} {s : Store} {id : String} {w w' : Workspace} {troubles : Disk.Troubles}

open Store (Stored)

/-- Either all files are stored, or those before the first of which the storing fails, and maybe a beginning of that. -/
theorem saveAll_cases (s : Store) (id : String) (files : List (String × List UInt8)) (troubles : Disk.Troubles)
    (w : Workspace) :
    (∃ w', (saveAll s id files troubles).run w = (.ok (), w') ∧ Stored s id files w w') ∨
      ∃ before name bytes after left w₁ f w', files = before ++ (name, bytes) :: after ∧
        (saveAll s id before troubles).run w = (.ok (), w₁) ∧
        (s.saveAsset id name ⟨bytes.toArray⟩ troubles).run w₁ = (.error f, w') ∧
        (saveAll s id files troubles).run w = (.error f, w') ∧ Store.Torn name bytes left ∧
        Stored s id (before ++ left) w w' := by
  induction files generalizing w with
  | nil => exact .inl ⟨w, rfl, .of_onlyMakes (.refl w.disk)⟩
  | cons file files ih =>
    obtain ⟨name, bytes⟩ := file
    rcases hfirst : (s.saveAsset id name ⟨bytes.toArray⟩ troubles).run w with ⟨f | path, w₁⟩
    · obtain ⟨left, htorn, hleft⟩ := Store.stored_of_saveAsset_error hfirst
      exact .inr ⟨[], name, bytes, files, left, w, f, w₁, rfl, rfl, hfirst, run_bind_error hfirst, htorn, hleft⟩
    · have hstored := Stored.of_saveAsset hfirst
      rcases ih w₁ with ⟨w', hall, hrest⟩ |
        ⟨before, name', bytes', after, left, w₂, f, w', rfl, hbefore, hfails, hall, htorn, hrest⟩
      · exact .inl ⟨w', (run_bind_ok hfirst).trans hall, hstored.append hrest⟩
      · exact .inr ⟨(name, bytes) :: before, name', bytes', after, left, w₂, f, w', rfl,
          (run_bind_ok hfirst).trans hbefore, hfails, (run_bind_ok hfirst).trans hall, htorn, hstored.append hrest⟩

/-- What is answered where the body holds files. -/
def uploadReply : Except Failure Unit → Response
  | .ok () => ok (.obj [("status", .str "ok")])
  | .error f => (saveFailure f).getD crashed

theorem status_uploadReply {result : Except Failure Unit} : (uploadReply result).status = 200 ↔ result = .ok () := by
  rcases result with f | u
  · exact iff_of_false saveFailure_status nofun
  · exact iff_of_true rfl rfl

theorem run_respond_upload (hq : q.Asks "POST" (.assets id))
    (hform : (mediaType q.contentType).startsWith "multipart/" = true) {files : List (String × List UInt8)}
    (hfiles : uploads? q = some files) (w : Workspace) {result : Except Failure Unit}
    (hrun : (saveAll a.store id files troubles).run w = (result, w')) (room : Room) :
    (respond a q room troubles).run w = (.ok (uploadReply result), w') := by
  have hanswer : (answering saveFailure do
      saveAll a.store id files troubles
      return ok (.obj [("status", .str "ok")])).run w = (.ok (uploadReply result), w') := by
    cases result with
    | ok u => exact run_answering_ok (run_bind_ok hrun)
    | error f => exact run_tryCatch_error (run_bind_error hrun)
  rw [run_respond hq (by simp), handle, if_pos rfl, uploadAssets, hform, hfiles]
  simp only [Bool.not_true, Bool.false_eq_true, if_false, hanswer]

/-- An upload stores its files up to the first that cannot be stored, whatever the system refuses, and nothing else is
changed; of that file there may be a beginning. It is answered well exactly if all files are stored. -/
theorem upload_stores_prefix (hq : q.Asks "POST" (.assets id)) (room : Room) (troubles : Disk.Troubles)
    (w : Workspace) : ∃ response w' stored, (respond a q room troubles).run w = (.ok response, w') ∧
      Stored a.store id stored w w' ∧
      (response.status = 200 → uploads? q = some stored) ∧
      (response.status ≠ 200 →
        (stored = [] ∧ w' = w ∧ ((mediaType q.contentType).startsWith "multipart/" = false ∨ uploads? q = none)) ∨
        ∃ done name bytes rest left w₁ f, uploads? q = some (done ++ (name, bytes) :: rest) ∧
          stored = done ++ left ∧ Store.Torn name bytes left ∧
          (saveAll a.store id done troubles).run w = (.ok (), w₁) ∧
          (a.store.saveAsset id name ⟨bytes.toArray⟩ troubles).run w₁ = (.error f, w') ∧
          response = (saveFailure f).getD crashed) := by
  have hnone : Stored a.store id [] w w := .of_onlyMakes (.refl w.disk)
  cases hform : (mediaType q.contentType).startsWith "multipart/" with
  | false =>
    rw [run_respond hq (by simp), handle, if_pos rfl, uploadAssets, hform]
    exact ⟨_, w, [], rfl, hnone, by simp [errorReply, reply], fun _ => .inl ⟨rfl, rfl, .inl rfl⟩⟩
  | true =>
    cases hfiles : uploads? q with
    | none =>
      rw [run_respond hq (by simp), handle, if_pos rfl, uploadAssets, hform, hfiles]
      exact ⟨_, w, [], rfl, hnone, by simp [tooLarge], fun _ => .inl ⟨rfl, rfl, .inr rfl⟩⟩
    | some files =>
      rcases saveAll_cases a.store id files troubles w with ⟨w', hall, hstored⟩ |
        ⟨done, name, bytes, rest, left, w₁, f, w', rfl, hdone, hfails, hall, htorn, hstored⟩
      · exact ⟨_, w', files, run_respond_upload hq hform hfiles w hall room, hstored, fun _ => rfl,
          fun h => absurd (status_uploadReply.2 rfl) h⟩
      · refine ⟨_, w', done ++ left, run_respond_upload hq hform hfiles w hall room, hstored, fun h => ?_, fun _ =>
          .inr ⟨done, name, bytes, rest, left, w₁, f, rfl, rfl, htorn, hdone, hfails, rfl⟩⟩
        cases status_uploadReply.1 h

/-- A form with two files, the first with the letter `x` in it and the second with the letter `y`. -/
def formOfTwo (name name' : String) : List Char :=
  "--b\r\nContent-Disposition: form-data; name=files; filename=".toList ++ name.toList ++ "\r\n\r\nx\r\n".toList ++
    "--b\r\nContent-Disposition: form-data; name=files; filename=".toList ++ name'.toList ++
    "\r\n\r\ny\r\n--b--\r\n".toList

def uploadOfTwo (name name' : String) : Request :=
  { sampleUpload with body := (String.ofList (formOfTwo name name')).toUTF8 }

theorem mediaType_sampleUpload : mediaType sampleUpload.contentType = "multipart/form-data" := by decide +kernel

theorem asks_uploadOfTwo (name name' : String) : (uploadOfTwo name name').Asks "POST" (.assets "p") := by
  have htarget : (uploadOfTwo name name').target = sampleUpload.target := rfl
  have htype : (uploadOfTwo name name').contentType = sampleUpload.contentType := rfl
  obtain ⟨t, ht, hmethod, hroute⟩ := asks_sampleUpload
  refine ⟨t, ?_, hmethod, hroute⟩
  rwa [Request.target?, htarget, htype]

theorem uploads_uploadOfTwo {name name' : String} {files : List (String × List UInt8)}
    (hlarge : (uploadOfTwo name name').isTooLarge = false)
    (hfiles : Multipart.files? sampleUpload.contentType "files" ((formOfTwo name name').flatMap String.utf8EncodeChar) =
      some files) : uploads? (uploadOfTwo name name') = some files := by
  have hbody : (uploadOfTwo name name').body = (String.ofList (formOfTwo name name')).toUTF8 := by rw [uploadOfTwo]
  have hsame : (uploadOfTwo name name').contentType = sampleUpload.contentType := rfl
  rw [uploads?, hlarge, hsame, mediaType_sampleUpload, hbody, toList_toUTF8, if_neg Bool.false_ne_true,
    if_pos rfl, hfiles]

theorem form_uploadOfTwo (name name' : String) :
    (mediaType (uploadOfTwo name name').contentType).startsWith "multipart/" = true := by
  have hsame : (uploadOfTwo name name').contentType = sampleUpload.contentType := rfl
  rw [hsame, mediaType_sampleUpload]
  decide +kernel

/-- A workspace in which a project has a file of one byte. -/
def workspaceOfByte (b : UInt8) : Workspace :=
  Store.sampleWorkspace [("projects", .dir [("p", .dir [("assets", .dir [("f", .file 0o644 (.bytes ⟨#[b]⟩))])])])]

theorem path_assets : sampleApp.store.assetsPath "p" = ⟨.relative, ["projects", "p", "assets"]⟩ := by decide

theorem path_f : (sampleApp.store.assetsPath "p").child "f" = ⟨.relative, ["projects", "p", "assets", "f"]⟩ := by decide

theorem makeDirs_empty : (Disk.makeDirs ⟨.relative, ["projects", "p", "assets"]⟩).run (Store.sampleWorkspace []).disk =
    (.ok (), (Store.sampleWorkspace [("projects", .dir [("p", .dir [("assets", .dir [])])])]).disk) := by
  have hroot : (Store.sampleWorkspace []).disk.Finds ⟨.relative, ["projects"]⟩ (.absent ["projects"]) :=
    ⟨by decide, by decide, rfl⟩
  have hproject : (Store.sampleWorkspace [("projects", .dir [])]).disk.Finds ⟨.relative, ["projects", "p"]⟩
      (.absent ["projects", "p"]) := ⟨by decide, by decide, rfl⟩
  have hassets : (Store.sampleWorkspace [("projects", .dir [("p", .dir [])])]).disk.Finds
      ⟨.relative, ["projects", "p", "assets"]⟩ (.absent ["projects", "p", "assets"]) := ⟨by decide, by decide, rfl⟩
  have hone : (Disk.makeDirs ⟨.relative, ["projects"]⟩).run (Store.sampleWorkspace []).disk =
      (.ok (), (Store.sampleWorkspace [("projects", .dir [])]).disk) := Disk.run_makeDirs_absent hroot
  have htwo : (Disk.makeDirs ⟨.relative, ["projects", "p"]⟩).run (Store.sampleWorkspace []).disk =
      (.ok (), (Store.sampleWorkspace [("projects", .dir [("p", .dir [])])]).disk) :=
    (Disk.run_makeDirs_parent (p := ⟨.relative, ["projects", "p"]⟩) (by decide) (by decide) rfl hone).trans
      (Disk.run_mkdirOk_absent hproject)
  exact (Disk.run_makeDirs_parent (p := ⟨.relative, ["projects", "p", "assets"]⟩) (by decide) (by decide) rfl
    htwo).trans (Disk.run_mkdirOk_absent hassets)

theorem saveAsset_first : (sampleApp.store.saveAsset "p" "f" ⟨#[120]⟩).run (Store.sampleWorkspace []) =
    (.ok ((sampleApp.store.assetsPath "p").child "f"), workspaceOfByte 120) := by
  have hdirs := makeDirs_empty
  have hfree : (Store.sampleWorkspace [("projects", .dir [("p", .dir [("assets", .dir [])])])]).disk.Finds
      ⟨.relative, ["projects", "p", "assets", "f"]⟩ (.absent ["projects", "p", "assets", "f"]) :=
    ⟨by decide, by decide, rfl⟩
  rw [← path_assets] at hdirs
  rw [← path_f] at hfree
  exact Store.run_saveAsset (by decide) (by decide) hdirs (Disk.run_write_absent hfree _ _)

theorem saveAll_again : (saveAll sampleApp.store "p" [("f", [120]), ("f", [121])]).run (Store.sampleWorkspace []) =
    (.ok (), workspaceOfByte 121) := by
  have hassets : (workspaceOfByte 120).disk.Finds ⟨.relative, ["projects", "p", "assets"]⟩
      (.found ["projects", "p", "assets"] (.dir [("f", .file 0o644 (.bytes ⟨#[120]⟩))])) :=
    ⟨by decide, by decide, rfl⟩
  have hfile : (workspaceOfByte 120).disk.Finds ⟨.relative, ["projects", "p", "assets", "f"]⟩
      (.found ["projects", "p", "assets", "f"] (.file 0o644 (.bytes ⟨#[120]⟩))) := ⟨by decide, by decide, rfl⟩
  rw [← path_assets] at hassets
  rw [← path_f] at hfile
  have hwrite := Disk.run_write_found hfile (.bytes ⟨#[121]⟩) 0o644
  have hsecond := Store.run_saveAsset (s := sampleApp.store) (by decide) (by decide) (Disk.run_makeDirs_found hassets)
    hwrite
  exact (run_bind_ok saveAsset_first).trans (run_bind_ok hsecond)

/-- Two files of one name: the second stands. -/
theorem upload_stores_prefix_again : (uploadOfTwo "f" "f").Asks "POST" (.assets "p") ∧
    ∃ response w', (respond sampleApp (uploadOfTwo "f" "f")).run (Store.sampleWorkspace []) = (.ok response, w') ∧
      response.status = 200 ∧ Stored sampleApp.store "p" [("f", [120]), ("f", [121])] (Store.sampleWorkspace []) w' ∧
      w'.disk.root.get? ["projects", "p", "assets", "f"] = some (.file 0o644 (.bytes ⟨#[121]⟩)) := by
  have hq := asks_uploadOfTwo "f" "f"
  have hfiles : uploads? (uploadOfTwo "f" "f") = some [("f", [120]), ("f", [121])] :=
    uploads_uploadOfTwo (by decide +kernel) (by decide +kernel)
  have hanswer := run_respond_upload hq (form_uploadOfTwo "f" "f") hfiles _ saveAll_again .standard
  obtain ⟨response, w', done, hrun, hstored, hall, -⟩ :=
    upload_stores_prefix (a := sampleApp) hq .standard .none (Store.sampleWorkspace [])
  cases hrun.symm.trans hanswer
  have hstatus := status_uploadReply.2 (rfl : Except.ok () = _)
  cases (hall hstatus).symm.trans hfiles
  exact ⟨hq, _, _, hanswer, hstatus, hstored, rfl⟩

/-- The name of the second file is refused, and the first file has come. -/
theorem upload_stores_first : ∃ response w',
    (respond sampleApp (uploadOfTwo "f" "..")).run (Store.sampleWorkspace []) = (.ok response, w') ∧
      response.status = 400 ∧
      (Store.sampleWorkspace []).disk.root.get? ["projects", "p", "assets", "f"] = none ∧
      w'.disk.root.get? ["projects", "p", "assets", "f"] = some (.file 0o644 (.bytes ⟨#[120]⟩)) := by
  have hfiles : uploads? (uploadOfTwo "f" "..") = some [("f", [120]), ("..", [121])] :=
    uploads_uploadOfTwo (by decide +kernel) (by decide +kernel)
  have hall : (saveAll sampleApp.store "p" [("f", [120]), ("..", [121])]).run (Store.sampleWorkspace []) =
      (.error (.store (.invalidName "..")), workspaceOfByte 120) :=
    (run_bind_ok saveAsset_first).trans rfl
  have hanswer := run_respond_upload (asks_uploadOfTwo "f" "..") (form_uploadOfTwo "f" "..") hfiles _ hall .standard
  exact ⟨_, _, hanswer, rfl, rfl, rfl⟩

end Web

end Provision
