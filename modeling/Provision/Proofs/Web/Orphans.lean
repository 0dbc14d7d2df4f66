import Provision.Proofs.Bundle.Naming
import Provision.Proofs.Recipe.Sorted
import Provision.Proofs.Web.Leaving

/-!
# Directories without a project

Requests leave directories of projects, and recipes in some of them. `project_directories_iff` tells for every history
of requests to an empty store which directories there are, for which of them the files are listed, and which of them
are projects: the directories are left by `Opens`, the projects by `Saves`. An upload is enough for a directory, so one
for a project that is not there leaves files that are listed and no project (`upload_leaves_orphan`).
-/

namespace Provision.Web

variable {a : App} {q : Request} {m : Ledger} {w w' : Workspace} {id method : String} {route : Route}
  {requests : List (Timestamp × Request)} {onFailure : Failure → Option Response} {x : HandlerM Response}

/-- The request is answered, and with success. -/
def Succeeds (a : App) (q : Request) (w : Workspace) : Prop :=
  ∃ response w', (respond a q).run w = (.ok response, w') ∧ response.status = 200

/-- The answer is a list that has a project with the id. -/
def Response.Lists (response : Response) (id : String) : Prop :=
  ∃ items ms, response.body = some (.arr items) ∧ Json.obj ms ∈ items ∧ Members.get? ms "id" = some (.str id)

theorem succeeds_iff (h : q.Asks method route) (hm : method ∈ ["GET", "PUT", "POST"]) :
    Succeeds a q w ↔ ∃ response w', (handle a q method route).run w = (.ok response, w') ∧ response.status = 200 := by
  rw [Succeeds, run_respond h hm]
  rcases (handle a q method route).run w with ⟨f | response, w'⟩
  · constructor
    · rintro ⟨_, _, hcrashed, hstatus⟩
      cases hcrashed
      cases hstatus
    · rintro ⟨_, _, hnone, -⟩
      cases hnone
  · constructor
    · rintro ⟨_, _, hanswer, hstatus⟩
      cases hanswer
      exact ⟨response, w', rfl, hstatus⟩
    · rintro ⟨_, _, hanswer, hstatus⟩
      cases hanswer
      exact ⟨response, w', rfl, hstatus⟩

theorem succeeds_answering (hfailure : ∀ f, ((onFailure f).getD crashed).status ≠ 200) :
    (∃ response w', (answering onFailure x).run w = (.ok response, w') ∧ response.status = 200) ↔
      ∃ response w', x.run w = (.ok response, w') ∧ response.status = 200 := by
  constructor
  · rintro ⟨response, w', hrun, hstatus⟩
    rcases answering_eq_ok hrun with hrun | ⟨f, rfl⟩
    · exact ⟨response, w', hrun, hstatus⟩
    · exact absurd hstatus (hfailure f)
  · rintro ⟨response, w', hrun, hstatus⟩
    exact ⟨response, w', run_answering_ok hrun, hstatus⟩

theorem succeeds_listAssets (hq : q.Asks "GET" (.assets id)) :
    Succeeds a q w ↔ ∃ as, (a.store.listAssets id).run w = (.ok as, w) := by
  rw [succeeds_iff hq (by simp), handle, if_neg (by decide), listAssets]
  refine (succeeds_answering ?_).trans ⟨?_, ?_⟩
  · intro f hstatus
    cases f <;> cases hstatus
  · rintro ⟨response, w', hrun, -⟩
    obtain ⟨as, w₁, hlist, -⟩ := run_bind_eq_ok.1 hrun
    obtain rfl := (Store.readOnly_listAssets a.store id).run_eq hlist
    exact ⟨as, hlist⟩
  · rintro ⟨as, hlist⟩
    exact ⟨_, w, run_bind_ok hlist, rfl⟩

theorem succeeds_getProject (hq : q.Asks "GET" (.project id)) :
    Succeeds a q w ↔ ∃ r v, (a.store.loadRecipe id).run w = (.ok r, w) ∧ r.wire = .ok v := by
  rw [succeeds_iff hq (by simp), handle, if_neg (by decide), getProject]
  refine (succeeds_answering ?_).trans ⟨?_, ?_⟩
  · intro f hstatus
    split at hstatus <;> cases hstatus
  · rintro ⟨response, w', hrun, -⟩
    obtain ⟨r, w₁, hload, hrun⟩ := run_bind_eq_ok.1 hrun
    obtain rfl := (Store.readOnly_loadRecipe a.store id).run_eq hload
    obtain ⟨v, w₂, hwire, -⟩ := run_bind_eq_ok.1 hrun
    refine ⟨r, v, hload, ?_⟩
    rw [wireOf] at hwire
    split at hwire <;> cases hwire
    assumption
  · rintro ⟨r, v, hload, hwire⟩
    have hrun : (wireOf r).run w = (.ok v, w) := by
      rw [wireOf, hwire]
      rfl
    exact ⟨_, w, (run_bind_ok hload).trans (run_bind_ok hrun), rfl⟩

theorem get_wire (p : Project) : ∃ ms, p.wire.sorted = .obj ms ∧ Members.get? ms "id" = some (.str p.id) := by
  have hkeyed : IsKeyed [("id", Json.str p.id), ("name", .str p.name), ("description", .str p.description),
      ("target", .arr (p.target.map .str))] := by simp [IsKeyed]
  exact ⟨_, rfl, member_ok hkeyed "id"⟩

theorem lists_iff (ps : List Project) : (ok (.arr (ps.map Project.wire))).Lists id ↔ ∃ p ∈ ps, p.id = id := by
  have hbody : (ok (.arr (ps.map Project.wire))).body = some (.arr (ps.map fun p => p.wire.sorted)) := by
    rw [ok, reply, Json.sorted, Json.sortedItems_eq_map, List.map_map]
    rfl
  constructor
  · rintro ⟨items, ms, hitems, hmem, hid⟩
    cases hbody.symm.trans hitems
    obtain ⟨p, hp, hsorted⟩ := List.mem_map.1 hmem
    obtain ⟨ms', hsorted', hid'⟩ := get_wire p
    cases hsorted.symm.trans hsorted'
    cases hid.symm.trans hid'
    exact ⟨p, hp, rfl⟩
  · rintro ⟨p, hp, rfl⟩
    obtain ⟨ms, hsorted, hid⟩ := get_wire p
    exact ⟨_, ms, hbody, List.mem_map.2 ⟨p, hp, hsorted⟩, hid⟩

/-- There are directories for some projects, and the files of those are listed. Some of them have a recipe, and those
are projects. -/
structure Standing (a : App) (w : Workspace) (opened saved : String → Prop) : Prop where
  directory : ∀ id, id ∈ (w.disk.entriesAt a.dataRoot).map (·.1) ↔ opened id
  files : ∀ q id, id ≠ "." → q.Asks "GET" (.assets id) → (Succeeds a q w ↔ opened id)
  project : ∀ q id, id ≠ "." → q.Asks "GET" (.project id) → (Succeeds a q w ↔ saved id)
  listed : ∀ q, q.Asks "GET" .projects → ∃ response w', (respond a q).run w = (.ok response, w') ∧
    response.status = 200 ∧ ∀ id, response.Lists id ↔ saved id

theorem standing_of_keeps (h : a.store.Keeps m w.disk) : Standing a w m.Knows m.HasRecipe := by
  refine ⟨fun id => h.mem_entriesAt, fun q id hdot hq => ?_, fun q id hdot hq => ?_, fun q hq => ?_⟩
  · rw [succeeds_listAssets hq, h.listAssets_iff hdot]
  · rw [succeeds_getProject hq]
    constructor
    · rintro ⟨r, v, hload, -⟩
      exact h.hasRecipe_of_load hdot hload
    · intro hid
      obtain ⟨r, hr⟩ := Option.isSome_iff_exists.1 hid
      obtain ⟨-, -, text, htext⟩ := h.legible.recipes id r hr
      obtain ⟨v, hv⟩ := Recipe.exists_wire_reread htext
      exact ⟨r.reread, v, h.loadRecipe hr, hv⟩
  · obtain ⟨w', hlist, -⟩ := h.listProjects
    have hrun : (listProjects a).run w = (.ok (ok (.arr (m.projects.map Project.wire))), w') :=
      run_answering_ok (run_bind_ok hlist)
    refine ⟨_, w', ?_, rfl, fun id => (lists_iff _).trans h.mem_projects⟩
    rw [run_respond hq (by simp), handle, if_neg (by decide), hrun]

theorem Standing.congr {opened opened' saved saved' : String → Prop} (h : Standing a w opened saved)
    (hopened : ∀ id, opened id ↔ opened' id) (hsaved : ∀ id, saved id ↔ saved' id) : Standing a w opened' saved' := by
  obtain rfl : opened = opened' := funext fun id => propext (hopened id)
  obtain rfl : saved = saved' := funext fun id => propext (hsaved id)
  exact h

/-- Whatever has been asked of a store, except for changes to the project named by a single dot: the directories and the
projects are those that there were, and those that the requests have added. -/
theorem standing_after (h : a.store.Keeps m w.disk) (haside : ExportsAside a w)
    (hdot : ∀ x ∈ requests, ¬ AtRoot x.2) :
    Standing a (after a requests w) (fun id => m.Knows id ∨ Happens a (Opens id) requests w)
      fun id => m.HasRecipe id ∨ Happens a (Saves id) requests w := by
  obtain ⟨-, -, m', hkeeps, hadds⟩ := leaves_after h hdot haside
  exact (standing_of_keeps hkeeps).congr hadds.knows hadds.hasRecipe

/-- Nothing has been stored: the root of the store is missing or empty. The system takes the paths below it, the log
goes nowhere there, and exports go somewhere else. -/
structure Vacant (a : App) (w : Workspace) : Prop where
  empty : w.disk.Missing a.dataRoot ∨ ∃ l, w.disk.Finds a.dataRoot (.found l (.dir []))
  names : ∀ x ∈ a.dataRoot.names, Path.IsEntry x
  room : a.dataRoot.Room Store.roomBelow
  roomAbsolute : (w.disk.absolute a.dataRoot).Room Store.roomBelow
  cwd : ∀ x ∈ w.disk.cwd, Disk.IsPlain x
  start : (w.disk.root.get? (w.disk.start a.dataRoot)).isSome = true
  log : ∀ l, w.disk.held = some l → ¬ w.disk.placeOf a.dataRoot <+: l
  exports : ExportsAside a w

theorem Vacant.keeps (h : Vacant a w) : a.store.Keeps {} w.disk := by
  refine ⟨Ledger.legible_nil 0, h.names, ?_⟩
  rcases h.empty with hmissing | ⟨l, hfound⟩
  · exact .inr ⟨rfl, hmissing, h.start, h.room, h.roomAbsolute, h.cwd, h.log⟩
  · obtain rfl : l = w.disk.placeOf a.dataRoot := Disk.place_eq_follow hfound.leads
    exact .inl ⟨hfound, h.room, h.roomAbsolute, h.cwd, h.log⟩

/-- Whatever has been asked of an empty store, except for changes to the project named by a single dot, and without half
of a surrogate pair standing alone: there are just the directories that the requests have opened, their files are
listed, and those are projects for which a recipe has been saved. -/
theorem project_directories_iff (h : Vacant a w)
    (hrequests : ∀ x ∈ requests, ¬ AtRoot x.2 ∧ x.2.isPaired = true) :
    Standing a (after a requests w) (fun id => Happens a (Opens id) requests w)
      fun id => Happens a (Saves id) requests w :=
  (standing_after h.keeps h.exports fun x hx => (hrequests x hx).1).congr
    (fun _ => or_iff_right List.not_mem_nil) fun _ => or_iff_right nofun

/-! ### An upload to a project that is not there -/

/-- A name of its own in the directory for temporary files is not in the directory of projects. -/
theorem exportsAside_sample : ExportsAside sampleApp (Store.sampleWorkspace []) := by
  intro name
  have htarget : Bundle.defaultDir ⟨.root, ["tmp"]⟩ name = ⟨.root, ["tmp"] ++ ["bundle_" ++ Bundle.safeName name]⟩ :=
    Bundle.defaultDir_eq _ name
  have hdots : ".." ∉ ["tmp"] ++ ["bundle_" ++ Bundle.safeName name] := by
    rw [List.mem_append, not_or]
    refine ⟨by decide, fun hdot => ?_⟩
    have hbundle := congrArg String.toList (List.mem_singleton.1 hdot)
    rw [String.toList_append] at hbundle
    cases hbundle
  change Bundle.Aside [] ["projects"] (Bundle.defaultDir ⟨.root, ["tmp"]⟩ name)
  rw [htarget]
  refine ⟨hdots, fun d _ => ?_⟩
  rw [Disk.placeOf_of_no_dots d hdots]
  exact (apart_entries [] (by decide : "tmp" ≠ "projects")).append _

theorem vacant_sample : Vacant sampleApp (Store.sampleWorkspace []) := by
  have hmissing : (Store.sampleWorkspace []).disk.Finds sampleApp.dataRoot (.absent ["projects"]) :=
    ⟨by decide, by decide, rfl⟩
  refine ⟨.inl hmissing.missing, fun x hx => ?_, ⟨by decide, by decide⟩, ⟨by decide, by decide⟩, nofun, rfl, nofun,
    exportsAside_sample⟩
  obtain rfl := List.mem_singleton.1 hx
  exact ⟨⟨by simp, by decide, by decide⟩, ⟨by decide, by decide⟩, by decide⟩

/-- A form with one file, which has the letter `x` in it. -/
def sampleForm : List Char :=
  "--b\r\nContent-Disposition: form-data; name=files; filename=f\r\n\r\nx\r\n--b--\r\n".toList

def sampleUpload : Request where
  method := "POST"
  target := "/api/projects/p/assets"
  contentType := "multipart/form-data; boundary=b"
  body := (String.ofList sampleForm).toUTF8

theorem uploads_sampleUpload : uploads? sampleUpload = some [("f", [120])] := by
  have hbytes : sampleUpload.body.toList = sampleForm.flatMap String.utf8EncodeChar := toList_toUTF8 _
  have hlarge : sampleUpload.isTooLarge = false := by decide +kernel
  have htype : mediaType sampleUpload.contentType = "multipart/form-data" := by decide +kernel
  rw [uploads?, hlarge, htype, hbytes]
  decide +kernel

theorem asks_sampleUpload : sampleUpload.Asks "POST" (.assets "p") := by
  have htarget : sampleUpload.target.toList = '/' :: 'a' :: "pi/projects/p/assets".toList := by decide +kernel
  have hpath : ('/' :: 'a' :: "pi/projects/p/assets".toList).all isPathChar = true := by decide +kernel
  refine asks_of_path htarget (List.all_eq_true.1 hpath) (by decide) ?_ (by decide +kernel) (by decide +kernel) rfl
  decide +kernel

theorem Request.Asks.unique {method' : String} {route' : Route} (h : q.Asks method route) (h' : q.Asks method' route') :
    method = method' ∧ route = route' := by
  obtain ⟨t, ht, rfl, hroute⟩ := h
  obtain ⟨t', ht', rfl, hroute'⟩ := h'
  cases ht.symm.trans ht'
  exact ⟨rfl, Destination.route.inj (hroute.symm.trans hroute')⟩

theorem opens_sampleUpload : Opens id w sampleUpload ↔ id = "p" := by
  constructor
  · rintro (⟨hpost, -⟩ | ⟨-, ⟨hput, -⟩ | ⟨hpost, -⟩⟩)
    · cases (hpost.unique asks_sampleUpload).2
    · cases (hput.unique asks_sampleUpload).2
    · exact Route.assets.inj (hpost.unique asks_sampleUpload).2
  · rintro rfl
    exact .inr ⟨⟨by decide, by decide, by decide, by decide⟩,
      .inr ⟨asks_sampleUpload, ("f", [120]), [], uploads_sampleUpload, by decide⟩⟩

theorem not_saves_sampleUpload : ¬ Saves id w sampleUpload := by
  rintro (⟨hpost, -⟩ | ⟨-, hput, -⟩)
  · cases (hpost.unique asks_sampleUpload).2
  · cases (hput.unique asks_sampleUpload).2

theorem not_atRoot_sampleUpload : ¬ AtRoot sampleUpload := by
  rintro (hput | hpost)
  · cases (hput.unique asks_sampleUpload).2
  · exact absurd (Route.assets.inj (hpost.unique asks_sampleUpload).2) (by decide)

/-- After the upload alone, the files of the project are listed, but there is no project. -/
theorem upload_leaves_orphan : ∃ w,
    ((respond sampleApp sampleUpload).run (Store.sampleWorkspace [])).2 = w ∧
      Succeeds sampleApp (sampleRequest "GET" "projects/p/assets") w ∧
      ¬ Succeeds sampleApp (sampleRequest "GET" "projects/p") w ∧
      ∃ response w', (respond sampleApp (sampleRequest "GET" "projects")).run w = (.ok response, w') ∧
        response.status = 200 ∧ ¬ response.Lists "p" := by
  have hassets : (sampleRequest "GET" "projects/p/assets").Asks "GET" (.assets "p") :=
    asks_sample (by decide +kernel) (by decide +kernel) (by decide +kernel) (by decide +kernel)
  have hproject : (sampleRequest "GET" "projects/p").Asks "GET" (.project "p") :=
    asks_sample (by decide +kernel) (by decide +kernel) (by decide +kernel) (by decide +kernel)
  have hprojects : (sampleRequest "GET" "projects").Asks "GET" .projects :=
    asks_sample (by decide +kernel) (by decide +kernel) (by decide +kernel) (by decide +kernel)
  have hdot : ∀ x ∈ [(Timestamp.epoch, sampleUpload)], ¬ AtRoot x.2 :=
    List.forall_mem_singleton.2 not_atRoot_sampleUpload
  have hstanding := standing_after vacant_sample.keeps vacant_sample.exports hdot
  have hopened : Happens sampleApp (Opens "p") [(.epoch, sampleUpload)] (Store.sampleWorkspace []) :=
    .inl (opens_sampleUpload.2 rfl)
  have hnone : ¬ (Ledger.HasRecipe {} "p" ∨
      Happens sampleApp (Saves "p") [(.epoch, sampleUpload)] (Store.sampleWorkspace [])) := by
    rintro (hrecipe | hsaves | hnever)
    · cases hrecipe
    · exact not_saves_sampleUpload hsaves
    · exact hnever
  obtain ⟨response, w', hlist, hstatus, hitems⟩ := hstanding.listed _ hprojects
  refine ⟨_, rfl, (hstanding.files _ "p" (by decide) hassets).2 (.inr hopened), fun h => hnone ?_,
    response, w', hlist, hstatus, fun h => hnone ((hitems "p").1 h)⟩
  exact (hstanding.project _ "p" (by decide) hproject).1 h

/-- An upload to one project, and a recipe for another one. -/
def sampleHistory : List (Timestamp × Request) :=
  [(.epoch, sampleUpload), (.epoch, sampleRequest "PUT" "projects/q")]

theorem asks_samplePut : (sampleRequest "PUT" "projects/q").Asks "PUT" (.project "q") :=
  asks_sample (by decide +kernel) (by decide +kernel) (by decide +kernel) (by decide +kernel)

theorem saves_samplePut (hnow : w.now = .epoch) : Saves "q" w (sampleRequest "PUT" "projects/q") := by
  obtain ⟨text, htext⟩ := (isStorable_sample.restamped "q" .epoch).canonical
  refine .inr ⟨⟨by decide, by decide, by decide, by decide⟩, asks_samplePut,
    sampleBody.recipe, text, ⟨_, payload_sample _ _, ?_⟩, ?_⟩
  · rw [hnow]
    exact recipe_sample
  · rwa [hnow]

theorem eq_of_opens_samplePut (h : Opens id w (sampleRequest "PUT" "projects/q")) : id = "q" := by
  rcases h with ⟨hpost, -⟩ | ⟨-, ⟨hput, -⟩ | ⟨hpost, -⟩⟩
  · cases (hpost.unique asks_samplePut).2
  · exact Route.project.inj (hput.unique asks_samplePut).2
  · cases (hpost.unique asks_samplePut).2

/-- After both there are two directories and one project. -/
theorem project_directories_iff_upload : Vacant sampleApp (Store.sampleWorkspace []) ∧
    (∀ x ∈ sampleHistory, ¬ AtRoot x.2 ∧ x.2.isPaired = true) ∧
      Standing sampleApp (after sampleApp sampleHistory (Store.sampleWorkspace [])) (fun id => id = "p" ∨ id = "q")
        fun id => id = "q" := by
  have hrequests : ∀ x ∈ sampleHistory, ¬ AtRoot x.2 ∧ x.2.isPaired = true := by
    refine List.forall_mem_cons.2 ⟨⟨not_atRoot_sampleUpload, by decide +kernel⟩,
      List.forall_mem_singleton.2 ⟨?_, isPaired_sample _ _⟩⟩
    rintro (hput | hpost)
    · exact absurd (Route.project.inj (hput.unique asks_samplePut).2) (by decide)
    · cases (hpost.unique asks_samplePut).2
  refine ⟨vacant_sample, hrequests, (project_directories_iff vacant_sample hrequests).congr (fun id => ?_) fun id => ?_⟩
  · constructor
    · rintro (hupload | hput | hnever)
      · exact .inl (opens_sampleUpload.1 hupload)
      · exact .inr (eq_of_opens_samplePut hput)
      · exact hnever.elim
    · rintro (rfl | rfl)
      · exact .inl (opens_sampleUpload.2 rfl)
      · exact .inr (.inl (opens_of_saves (saves_samplePut rfl)))
  · constructor
    · rintro (hupload | hput | hnever)
      · exact (not_saves_sampleUpload hupload).elim
      · exact eq_of_opens_samplePut (opens_of_saves hput)
      · exact hnever.elim
    · rintro rfl
      exact .inr (.inl (saves_samplePut rfl))

end Provision.Web
