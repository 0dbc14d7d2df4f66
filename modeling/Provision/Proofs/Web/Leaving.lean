import Provision.Proofs.Store.Keeping
import Provision.Proofs.Web.Agreement

/-!
# What requests leave

Whatever is asked, and however it is answered, the projects that are kept stay, and what comes to them is told by the
request (`leaves_respond`): a project gets its directories from an upload, from a recipe that is put under its id, and
when it is created (`Opens`), and its recipe from the last two, if that has a text (`Saves`). All other requests leave
nothing but lines of the log. From this it is told what a history of requests leaves (`leaves_after`).
-/

namespace Provision.Web

open Store (IsEntryName isName)
open Workspace (Logs)

variable {a : App} {q : Request} {s : Store} {m : Ledger} {w w' : Workspace} {id method : String} {r : Recipe}
  {route : Route} {made saved : String → Prop} {onFailure : Failure → Option Response} {x : HandlerM Response}

/-- The body holds the recipe. -/
def Carries (q : Request) (now : Timestamp) (r : Recipe) : Prop :=
  ∃ ms, payload q = .object ms ∧ Recipe.ofJson now (.obj ms) = .ok r

/-- The body is accepted for a new project: a target that is given is a list. -/
def Accepts (q : Request) : Prop :=
  ∃ ms, payload q = .object ms ∧ ∀ v, given? ms "target" = some v → ∃ targets, v = .arr targets

/-- There are files in the body, the first of which has a name that is accepted. -/
def Offers (q : Request) : Prop :=
  ∃ file files, uploads? q = some (file :: files) ∧ isName file.1 = true

/-- The request creates the project. -/
def Creates (id : String) (w : Workspace) (q : Request) : Prop :=
  q.Asks "POST" .projects ∧ Accepts q ∧ id = String.ofList (Text.hex 32 (w.issued + 1))

/-- The request leaves directories for the project. -/
def Opens (id : String) (w : Workspace) (q : Request) : Prop :=
  Creates id w q ∨
    IsEntryName id ∧ (q.Asks "PUT" (.project id) ∧ (∃ r, Carries q w.now r) ∨ q.Asks "POST" (.assets id) ∧ Offers q)

/-- The request leaves a recipe of the project. -/
def Saves (id : String) (w : Workspace) (q : Request) : Prop :=
  Creates id w q ∨
    IsEntryName id ∧ q.Asks "PUT" (.project id) ∧
      ∃ r text, Carries q w.now r ∧ (r.restamped id w.now).canonical = .ok text

/-- The request is one to change the project named by a single dot, whose directory is the root of the store. -/
def AtRoot (q : Request) : Prop :=
  q.Asks "PUT" (.project ".") ∨ q.Asks "POST" (.assets ".")

theorem logs_readOnly {α : Type} {x : HandlerM α} (h : ReadOnly x) : Preserves Logs x :=
  h.preserves Logs.refl

theorem logs_answering (h : Preserves Logs x) : Preserves Logs (answering onFailure x) :=
  .tryCatch Logs.trans h fun _ => .pure Logs.refl _

theorem readOnly_wireOf (r : Recipe) : ReadOnly (wireOf r) := by
  rw [wireOf]
  split
  · exact .pure _
  · exact .throw _

theorem logs_withObject {handle : Members → HandlerM Response} (h : ∀ ms, Preserves Logs (handle ms)) :
    Preserves Logs (withObject q handle) := by
  rw [withObject]
  split
  · exact h _
  all_goals exact .pure Logs.refl _

theorem logs_withRecipe {handle : Recipe → HandlerM Response} (h : ∀ r, Preserves Logs (handle r)) :
    Preserves Logs (withRecipe q handle) := by
  rw [withRecipe]
  refine logs_withObject fun ms => .bind Logs.trans (logs_readOnly fun _ => rfl) fun now => ?_
  split
  · exact h _
  · exact .pure Logs.refl _

theorem logs_check (r : Recipe) : Preserves Logs (Compile.check r) := by
  intro w
  obtain ⟨w', hlogs, hrun⟩ := Compile.run_check r w
  rwa [hrun]

theorem logs_compile (r : Recipe) : Preserves Logs (Compile.compile r none) := by
  intro w
  obtain ⟨w', hlogs, hrun⟩ := Compile.run_compile r none w
  rwa [hrun]

theorem logs_projectsIn (entries : List Path) : Preserves Logs (Store.projectsIn entries) := by
  induction entries with
  | nil => exact .pure Logs.refl _
  | cons entry entries ih =>
    exact .bind Logs.trans (Store.logs_projectIn entry) fun _ => .bind Logs.trans ih fun _ => .pure Logs.refl _

theorem logs_listProjects (a : App) : Preserves Logs (listProjects a) := by
  refine logs_answering (.bind Logs.trans ?_ fun _ => .pure Logs.refl _)
  refine .bind Logs.trans (logs_readOnly (WorkM.readOnly_onDisk (Disk.readOnly_isDir _))) fun isDir => ?_
  cases isDir with
  | false => exact .pure Logs.refl _
  | true =>
    exact .bind Logs.trans (logs_readOnly (WorkM.readOnly_onDisk (Disk.readOnly_list _))) fun _ => logs_projectsIn _

theorem logs_getProject (a : App) (id : String) : Preserves Logs (getProject a id) :=
  logs_answering (logs_readOnly (.bind (Store.readOnly_loadRecipe a.store id) fun r =>
    .bind (readOnly_wireOf r) fun _ => .pure _))

theorem logs_listAssets (a : App) (id : String) : Preserves Logs (listAssets a id) :=
  logs_answering (logs_readOnly (.bind (Store.readOnly_listAssets a.store id) fun _ => .pure _))

theorem logs_preview (a : App) (id : String) : Preserves Logs (preview a id) :=
  logs_answering (.bind Logs.trans (logs_readOnly (Store.readOnly_loadRecipe a.store id)) fun r =>
    .bind Logs.trans (logs_compile r) fun _ => .pure Logs.refl _)

theorem logs_validate (q : Request) : Preserves Logs (validate q) :=
  logs_withRecipe fun r => logs_answering (.bind Logs.trans (logs_check r) fun _ => .pure Logs.refl _)

theorem logs_render (q : Request) : Preserves Logs (render q) := by
  refine logs_withRecipe fun r => .bind Logs.trans (fun w => ?_) fun result => ?_
  · rw [Bundle.run_attempt_eq]
    exact logs_compile r w
  · split
    · exact .pure Logs.refl _
    · split
      · exact .bind Logs.trans (fun w => Workspace.logs_emit w _) fun _ => .pure Logs.refl _
      · exact .pure Logs.refl _
    · exact .pure Logs.refl _

theorem leaves_bind {α β : Type} {x : HandlerM α} {g : α → HandlerM β} (h : s.Leaves m made saved w (x.run w).2)
    (hg : ∀ b, Preserves Logs (g b)) : s.Leaves m made saved w ((x >>= g).run w).2 := by
  rcases hx : x.run w with ⟨f | b, w₁⟩
  · rw [run_bind_error hx]
    rwa [hx] at h
  · rw [run_bind_ok hx]
    rw [hx] at h
    exact h.logged (hg b w₁)

theorem leaves_answering (h : s.Leaves m made saved w (x.run w).2) :
    s.Leaves m made saved w ((answering onFailure x).run w).2 := by
  rcases hx : x.run w with ⟨f | response, w₁⟩
  · rw [answering, run_tryCatch_error hx]
    rwa [hx] at h
  · rw [run_answering_ok hx]
    rwa [hx] at h

theorem leaves_create (h : a.store.Keeps m w.disk) (q : Request) :
    a.store.Leaves m (fun id => Accepts q ∧ id = String.ofList (Text.hex 32 (w.issued + 1)))
      (fun id => Accepts q ∧ id = String.ofList (Text.hex 32 (w.issued + 1))) w ((createProject a q).run w).2 := by
  have hcreate : ∀ ms targets, a.store.Leaves m (· = String.ofList (Text.hex 32 (w.issued + 1)))
      (· = String.ofList (Text.hex 32 (w.issued + 1))) w ((createWith a ms targets).run w).2 := fun ms targets =>
    leaves_answering (leaves_bind (h.createProject _ _ _) fun r => logs_readOnly (.bind (readOnly_wireOf r) fun _ =>
      .pure _))
  by_cases haccepts : Accepts q
  · obtain ⟨ms, hobject, htarget⟩ := haccepts
    have hmade : ∀ id, id = String.ofList (Text.hex 32 (w.issued + 1)) ↔
        Accepts q ∧ id = String.ofList (Text.hex 32 (w.issued + 1)) := fun id =>
      (and_iff_right ⟨ms, hobject, htarget⟩).symm
    rw [createProject, withObject, hobject]
    dsimp only
    rw [createFrom]
    cases hgiven : given? ms "target" with
    | none => exact (hcreate ms []).congr hmade hmade
    | some v =>
      obtain ⟨targets, rfl⟩ := htarget v hgiven
      exact (hcreate ms targets).congr hmade hmade
  · have hunchanged : ((createProject a q).run w).2 = w := by
      rw [createProject, withObject]
      split
      · rename_i ms hobject
        rw [createFrom]
        split
        · rename_i hnone
          exact absurd ⟨ms, hobject, fun v hv => by rw [hnone] at hv; cases hv⟩ haccepts
        · rename_i targets hsome
          exact absurd ⟨ms, hobject, fun v hv => ⟨targets, (Option.some.inj (hsome.symm.trans hv)).symm⟩⟩ haccepts
        · rfl
      all_goals rfl
    rw [hunchanged]
    exact .of_none h (fun _ hmade => haccepts hmade.1) fun _ hsaved => haccepts hsaved.1

theorem run_saveProject_refused (a : App) (id : String) (h : ¬ ∃ r, Carries q w.now r) :
    ∃ response, (saveProject a id q).run w = (.ok response, w) ∧ response.status ≠ 200 := by
  rw [saveProject, withRecipe, withObject]
  cases hobject : payload q with
  | object ms =>
    dsimp only
    rw [run_bind_ok (WorkM.run_now w)]
    cases hr : Recipe.ofJson w.now (.obj ms) with
    | ok r => exact absurd ⟨r, ms, hobject, hr⟩ h
    | bad ds => exact ⟨_, rfl, by simp [invalidRecipe, reply]⟩
  | invalid => exact ⟨invalidJson, rfl, by decide⟩
  | tooLarge => exact ⟨tooLarge, rfl, by decide⟩
  | tooDeep => exact ⟨crashed, rfl, by decide⟩

theorem leaves_save (h : a.store.Keeps m w.disk) (hdot : id ≠ ".") (q : Request) :
    a.store.Leaves m (fun x => (x = id ∧ IsEntryName x) ∧ ∃ r, Carries q w.now r)
      (fun x => (x = id ∧ IsEntryName x) ∧ ∃ r text, Carries q w.now r ∧ (r.restamped id w.now).canonical = .ok text) w
      ((saveProject a id q).run w).2 := by
  by_cases hcarries : ∃ r, Carries q w.now r
  · obtain ⟨r, ms, hobject, hr⟩ := hcarries
    have hkeyed := Recipe.wellKeyed_of_ofJson (wellKeyed_of_payload hobject) hr
    have hleaves := h.saveRecipe (r := adopted id r) hdot ⟨hkeyed.vars, hkeyed.settings⟩
    have hother : ∀ r', Carries q w.now r' → r' = r := by
      rintro r' ⟨ms', hobject', hr'⟩
      cases hobject.symm.trans hobject'
      exact Checked.ok.inj (hr'.symm.trans hr)
    rw [saveProject, run_withRecipe hobject hr, saveAs]
    refine (leaves_answering (leaves_bind hleaves fun stored => ?_)).congr (fun x => ?_) fun x => ?_
    · exact .bind Logs.trans (logs_check stored) fun _ =>
        .bind Logs.trans (logs_readOnly (readOnly_wireOf stored)) fun _ => .pure Logs.refl _
    · exact (and_iff_left ⟨r, ms, hobject, hr⟩).symm
    · refine and_congr_right fun _ => ⟨?_, ?_⟩
      · rintro ⟨text, ht⟩
        exact ⟨r, text, ⟨ms, hobject, hr⟩, ht⟩
      · rintro ⟨r', text, hr', ht⟩
        exact ⟨text, hother r' hr' ▸ ht⟩
  · obtain ⟨response, hrun, -⟩ := run_saveProject_refused a id hcarries
    rw [hrun]
    refine .of_none h (fun _ hmade => hcarries hmade.2) ?_
    rintro x ⟨-, r, text, hr, -⟩
    exact hcarries ⟨r, hr⟩

theorem leaves_saveAll (h : s.Keeps m w.disk) (hdot : id ≠ ".") (files : List (String × List UInt8)) :
    s.Leaves m (fun x => (x = id ∧ IsEntryName x) ∧ ∃ file ∈ files.head?, isName file.1 = true) (fun _ => False) w
      ((saveAll s id files).run w).2 := by
  induction files generalizing m w with
  | nil => exact .of_none h (by simp) fun _ => not_false
  | cons file files ih =>
    obtain ⟨name, bytes⟩ := file
    have hone := h.saveAsset hdot name ⟨bytes.toArray⟩
    rcases hrun : (s.saveAsset id name ⟨bytes.toArray⟩).run w with ⟨f | path, w₁⟩
    · rw [hrun] at hone
      rw [saveAll, run_bind_error hrun]
      exact hone.congr (by simp) fun _ => .rfl
    · obtain ⟨hid, hname⟩ := h.isEntryName_of_saveAsset hdot hrun
      rw [hrun] at hone
      rw [saveAll, run_bind_ok hrun]
      refine (hone.trans fun m' h' => ih h').congr (fun x => ?_) (by simp)
      simp only [hname, and_true, List.head?_cons, Option.mem_some_iff, exists_eq_left']
      exact or_iff_left_of_imp And.left

theorem startsWith_of_offers (h : Offers q) : (mediaType q.contentType).startsWith "multipart/" = true := by
  obtain ⟨file, files, huploads, -⟩ := h
  rw [uploads?] at huploads
  split at huploads
  · cases huploads
  · split at huploads
    · rename_i htype
      rw [htype]
      decide +kernel
    · cases huploads

theorem leaves_upload (h : a.store.Keeps m w.disk) (hdot : id ≠ ".") (q : Request) :
    a.store.Leaves m (fun x => (x = id ∧ IsEntryName x) ∧ Offers q) (fun _ => False) w
      ((uploadAssets a id q).run w).2 := by
  have hnone : ∀ x, (¬ Offers q) → ¬ ((x = id ∧ IsEntryName x) ∧ Offers q) := fun _ hoffers hmade => hoffers hmade.2
  rw [uploadAssets]
  cases hstart : (mediaType q.contentType).startsWith "multipart/" with
  | false =>
    refine .of_none h (fun x => hnone x fun hoffers => ?_) fun _ => not_false
    rw [startsWith_of_offers hoffers] at hstart
    cases hstart
  | true =>
    cases huploads : uploads? q with
    | none =>
      refine .of_none h (fun x => hnone x ?_) fun _ => not_false
      rintro ⟨file, files, hsome, -⟩
      cases huploads.symm.trans hsome
    | some files =>
      refine (leaves_answering (leaves_bind (leaves_saveAll h hdot files) fun _ => .pure Logs.refl _)).congr
        (fun x => and_congr_right fun _ => ?_) fun _ => .rfl
      rw [Offers, huploads]
      cases files with
      | nil => simp
      | cons file files => simp

/-- Exports by default go to directories apart from the root of the store. -/
def ExportsAside (a : App) (w : Workspace) : Prop :=
  ∀ name, Bundle.Aside w.disk.cwd (w.disk.placeOf a.store.root)
    (Bundle.defaultDir (a.exportRoot.getD w.tempDir) name)

theorem leaves_export (h : a.store.Keeps m w.disk) (haside : ExportsAside a w) (id : String) (q : Request) :
    a.store.Leaves m (fun _ => False) (fun _ => False) w ((exportProject a id q).run w).2 := by
  have hnothing : a.store.Leaves m (fun _ => False) (fun _ => False) w w :=
    .of_none h (fun _ => not_false) fun _ => not_false
  have hexport : ∀ format, a.store.Leaves m (fun _ => False) (fun _ => False) w ((exportAs a id format).run w).2 := by
    intro format
    have hrun := h.exportProject (q := { project := id, format, root := a.exportRoot }) fun r _ => by
      rw [Bundle.targetOf, Option.getD_none]
      exact haside r.project.name
    exact leaves_answering (leaves_bind hrun fun _ => .pure Logs.refl _)
  rw [exportProject, withObject]
  split
  · rw [exportFrom]
    split
    · split
      · exact hexport _
      · exact hnothing
    · exact hnothing
  all_goals exact hnothing

/-! ### Requests -/

theorem opens_of_saves (h : Saves id w q) : Opens id w q := by
  rcases h with h | ⟨hid, hput, r, -, hr, -⟩
  · exact .inl h
  · exact .inr ⟨hid, .inl ⟨hput, r, hr⟩⟩

/-- The request asks for this, and for nothing else. -/
def Request.AsksOnly (q : Request) (method : String) (route : Route) : Prop :=
  ∀ method' route', q.Asks method' route' ↔ method = method' ∧ route = route'

theorem respond_cases (a : App) (q : Request) (w : Workspace) :
    ((∀ method route, method ≠ "OPTIONS" → ¬ q.Asks method route) ∧ ((respond a q).run w).2 = w) ∨
      ∃ method route, q.AsksOnly method route ∧
        ((respond a q).run w).2 = ((handle a q method route).run w).2 := by
  rw [respond]
  cases ht : q.target? with
  | error f =>
    refine .inl ⟨?_, rfl⟩
    rintro method route - ⟨t, ht', -⟩
    cases ht.symm.trans ht'
  | ok t =>
    have hasks : ∀ method route, q.Asks method route ↔
        Text.upper q.method = method ∧ t.destination (Text.upper q.method) = .route route := by
      refine fun method route => ⟨?_, ?_⟩
      · rintro ⟨t', ht', rfl, hroute⟩
        cases ht.symm.trans ht'
        exact ⟨rfl, hroute⟩
      · rintro ⟨rfl, hroute⟩
        exact ⟨t, ht, rfl, hroute⟩
    change _ ∧ ((answer a q t).run w).2 = w ∨ ∃ method route, _ ∧ ((answer a q t).run w).2 = _
    cases hroute : t.destination (Text.upper q.method) with
    | route route =>
      by_cases hoptions : Text.upper q.method = "OPTIONS"
      · refine .inl ⟨fun method route' hmethod h => hmethod (((hasks method route').1 h).1 ▸ hoptions), ?_⟩
        simp only [answer, hroute, if_pos hoptions]
        rfl
      · refine .inr ⟨Text.upper q.method, route, fun method' route' => ?_, ?_⟩
        · rw [hasks, hroute, Destination.route.injEq]
        · simp only [answer, hroute, if_neg hoptions, StateT.run, bind, StateT.bind]
          rcases (handle a q (Text.upper q.method) route).run w with ⟨f | response, w'⟩ <;> rfl
    | _ =>
      refine .inl ⟨fun method route _ h => ?_, ?_⟩
      · have hother := ((hasks method route).1 h).2
        cases hroute.symm.trans hother
      · simp only [answer, hroute]
        rfl

theorem leaves_quiet (h : a.store.Keeps m w.disk) (hopens : ∀ id, ¬ Opens id w q) (hlogs : Logs w w') :
    a.store.Leaves m (Opens · w q) (Saves · w q) w w' :=
  (Store.Leaves.of_logs h hlogs).congr (fun id => iff_of_false not_false (hopens id)) fun id =>
    iff_of_false not_false fun hsaves => hopens id (opens_of_saves hsaves)

theorem leaves_asked_create (h : a.store.Keeps m w.disk) (hasks : q.AsksOnly "POST" .projects) :
    a.store.Leaves m (Opens · w q) (Saves · w q) w ((createProject a q).run w).2 :=
  (leaves_create h q).congr (by simp [Opens, Creates, hasks _ _]) (by simp [Saves, Creates, hasks _ _])

theorem leaves_asked_save (h : a.store.Keeps m w.disk) (hdot : id ≠ ".")
    (hasks : q.AsksOnly "PUT" (.project id)) :
    a.store.Leaves m (Opens · w q) (Saves · w q) w ((saveProject a id q).run w).2 := by
  have hput : ∀ x, (x = id ∧ IsEntryName x) ↔ IsEntryName x ∧ q.Asks "PUT" (.project x) := fun x => by
    rw [hasks, and_comm, Route.project.injEq]
    exact and_congr_right fun _ => ⟨fun he => ⟨rfl, he.symm⟩, fun he => he.2.symm⟩
  have hcreates : ∀ x, ¬ Creates x w q := by simp [Creates, hasks _ _]
  have hpost : ∀ x, ¬ q.Asks "POST" (.assets x) := by simp [hasks _ _]
  refine (leaves_save h hdot q).congr (fun x => ?_) fun x => ?_
  · rw [hput, and_assoc, Opens, or_iff_right (hcreates x)]
    simp only [hpost, false_and, or_false]
  · rw [Saves, or_iff_right (hcreates x), ← and_assoc, ← hput]
    refine and_congr_right fun hx => ?_
    rw [hx.1]

theorem leaves_asked_upload (h : a.store.Keeps m w.disk) (hdot : id ≠ ".")
    (hasks : q.AsksOnly "POST" (.assets id)) :
    a.store.Leaves m (Opens · w q) (Saves · w q) w ((uploadAssets a id q).run w).2 := by
  have hpost : ∀ x, (x = id ∧ IsEntryName x) ↔ IsEntryName x ∧ q.Asks "POST" (.assets x) := fun x => by
    rw [hasks, and_comm, Route.assets.injEq]
    exact and_congr_right fun _ => ⟨fun he => ⟨rfl, he.symm⟩, fun he => he.2.symm⟩
  have hcreates : ∀ x, ¬ Creates x w q := by simp [Creates, hasks _ _]
  have hput : ∀ x, ¬ q.Asks "PUT" (.project x) := by simp [hasks _ _]
  refine (leaves_upload h hdot q).congr (fun x => ?_) fun x => ?_
  · rw [hpost, and_assoc, Opens, or_iff_right (hcreates x)]
    simp only [hput, false_and, false_or]
  · simp only [Saves, hcreates, hput, false_and, and_false, or_false]

theorem leaves_respond (h : a.store.Keeps m w.disk) (hdot : ¬ AtRoot q) (haside : ExportsAside a w) :
    a.store.Leaves m (Opens · w q) (Saves · w q) w ((respond a q).run w).2 := by
  rcases respond_cases a q w with ⟨hnone, hstate⟩ | ⟨method, route, hasks, hstate⟩
  · rw [hstate]
    refine leaves_quiet h ?_ (.refl w)
    rintro id (⟨hpost, -⟩ | ⟨-, ⟨hput, -⟩ | ⟨hpost, -⟩⟩)
    · exact hnone _ _ (by decide) hpost
    · exact hnone _ _ (by decide) hput
    · exact hnone _ _ (by decide) hpost
  rw [hstate]
  cases route with
  | projects =>
    by_cases hmethod : method = "POST"
    · subst hmethod
      rw [handle, if_pos rfl]
      exact leaves_asked_create h hasks
    · rw [handle, if_neg hmethod]
      exact leaves_quiet h (by simp [Opens, Creates, hasks _ _, hmethod]) (logs_listProjects a w)
  | project id =>
    by_cases hmethod : method = "PUT"
    · subst hmethod
      rw [handle, if_pos rfl]
      exact leaves_asked_save h (fun he => hdot (.inl ((hasks _ _).2 ⟨rfl, congrArg _ he⟩))) hasks
    · rw [handle, if_neg hmethod]
      exact leaves_quiet h (by simp [Opens, Creates, hasks _ _, hmethod]) (logs_getProject a id w)
  | assets id =>
    by_cases hmethod : method = "POST"
    · subst hmethod
      rw [handle, if_pos rfl]
      exact leaves_asked_upload h (fun he => hdot (.inr ((hasks _ _).2 ⟨rfl, congrArg _ he⟩))) hasks
    · rw [handle, if_neg hmethod]
      exact leaves_quiet h (by simp [Opens, Creates, hasks _ _, hmethod]) (logs_listAssets a id w)
  | preview id => exact leaves_quiet h (by simp [Opens, Creates, hasks _ _]) (logs_preview a id w)
  | bundle id =>
    exact (leaves_export h haside id q).congr (by simp [Opens, Creates, hasks _ _])
      (by simp [Saves, Creates, hasks _ _])
  | validate => exact leaves_quiet h (by simp [Opens, Creates, hasks _ _]) (logs_validate q w)
  | render => exact leaves_quiet h (by simp [Opens, Creates, hasks _ _]) (logs_render q w)
  | staticFile => exact leaves_quiet h (by simp [Opens, Creates, hasks _ _]) (.refl w)

/-- What requests leave that are answered one after the other, each at its time. -/
def after (a : App) : List (Timestamp × Request) → Workspace → Workspace
  | [], w => w
  | (now, q) :: rest, w => after a rest ((respond a q).run { w with now }).2

/-- There is such a request among them, judged by what it finds. -/
def Happens (a : App) (p : Workspace → Request → Prop) : List (Timestamp × Request) → Workspace → Prop
  | [], _ => False
  | (now, q) :: rest, w => p { w with now } q ∨ Happens a p rest ((respond a q).run { w with now }).2

theorem ExportsAside.of_leaves (h : ExportsAside a w) (hleaves : s.Leaves m made saved w w') : ExportsAside a w' := by
  intro name
  rw [hleaves.cwd, hleaves.tempDir, Disk.placeOf_of_cwd hleaves.cwd]
  exact h name

theorem leaves_after {requests : List (Timestamp × Request)} (h : a.store.Keeps m w.disk)
    (hdot : ∀ x ∈ requests, ¬ AtRoot x.2) (haside : ExportsAside a w) :
    a.store.Leaves m (fun id => Happens a (Opens id) requests w) (fun id => Happens a (Saves id) requests w) w
      (after a requests w) := by
  induction requests generalizing m w with
  | nil => exact .of_none h (fun _ => not_false) fun _ => not_false
  | cons x requests ih =>
    obtain ⟨now, q⟩ := x
    obtain ⟨hq, hrequests⟩ := List.forall_mem_cons.1 hdot
    -- The time is nothing that the store keeps.
    have hone : a.store.Leaves m (Opens · { w with now } q) (Saves · { w with now } q) w
        ((respond a q).run { w with now }).2 := by
      obtain ⟨hcwd, htemp, hkeeps⟩ := leaves_respond (w := { w with now }) h hq haside
      exact ⟨hcwd, htemp, hkeeps⟩
    exact hone.trans fun m' h' => ih h' hrequests (haside.of_leaves hone)

end Provision.Web
