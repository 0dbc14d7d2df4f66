import Provision.Proofs.Store.Escapes
import Provision.Proofs.Web.Agreement

/-!
# Answers without a body

A request for a project or its files is answered without a body exactly where a failure escapes that is no fault of
the store, or where what is read or stored is beyond the writer or the checks (`BareWhere`). Together with what can
escape at all, this is told for every disk, request and recipe (`store_failures_escape_iff`).
-/

namespace Provision.Web

open Store (Escapes)

variable {a : App} {q : Request} {method id : String} {route : Route} {response : Response} {r : Recipe}
  {w w' : Workspace} {x : HandlerM Response} {onFailure : Failure → Option Response} {s : Store} {room : Room}
  {troubles : Disk.Troubles}

/-- The answer to the request has no body. -/
def Bare (a : App) (q : Request) (room : Room) (troubles : Disk.Troubles) (w : Workspace) : Prop :=
  ∃ response w', (respond a q room troubles).run w = (.ok response, w') ∧ response.body = none

/-- The handler answers without a body, or not at all. -/
def Blank (x : HandlerM Response) (w : Workspace) : Prop :=
  match (x.run w).1 with
  | .ok response => response.body = none
  | .error _ => True

/-- Exactly the faults of the store are reported. -/
def Reports (onFailure : Failure → Option Response) : Prop :=
  ∀ f, ((onFailure f).getD crashed).body = none ↔ f.isStoreFault = false

/-- Whatever the handler answers has a body. -/
def Replies (x : HandlerM Response) : Prop :=
  ∀ w response w', x.run w = (.ok response, w') → response.body ≠ none

theorem bare_iff (h : q.Asks method route) (hm : method ∈ ["GET", "PUT", "POST"]) :
    Bare a q room troubles w ↔ Blank (handle a q method route room troubles) w := by
  rw [Bare, Blank, run_respond h hm]
  rcases (handle a q method route room troubles).run w with ⟨f | response, w'⟩
  · exact ⟨fun _ => trivial, fun _ => ⟨crashed, w', rfl, rfl⟩⟩
  · exact ⟨by rintro ⟨_, _, h, hbody⟩; cases h; exact hbody, fun hbody => ⟨response, w', rfl, hbody⟩⟩

theorem blank_ok (h : x.run w = (.ok response, w')) : Blank x w ↔ response.body = none := by
  rw [Blank, h]

theorem replies_ok (body : Json) : Replies (pure (ok body)) := by
  rintro w _ _ ⟨⟩
  exact nofun

theorem Replies.bind {α : Type} {y : HandlerM α} {g : α → HandlerM Response} (h : ∀ a, Replies (g a)) :
    Replies (y >>= g) := by
  intro w response w' hrun
  obtain ⟨a, w₁, -, hrun⟩ := run_bind_eq_ok.1 hrun
  exact h a w₁ response w' hrun

theorem blank_answering (hreports : Reports onFailure) (hbody : Replies x) :
    Blank (answering onFailure x) w ↔ Escapes x w := by
  rcases hx : x.run w with ⟨f | response, w'⟩
  · have hrun : (answering onFailure x).run w = (.ok ((onFailure f).getD crashed), w') := run_tryCatch_error hx
    rw [blank_ok hrun, hreports f, Store.escapes_error hx]
  · rw [blank_ok (run_answering_ok hx)]
    exact iff_of_false (hbody w response w' hx) (Store.not_escapes hx)

theorem reports_notFound : Reports fun f => if f.isStoreFault then some notFound else none := by
  rintro (_ | _) <;> simp [Failure.isStoreFault, notFound, errorReply, reply, crashed]

theorem reports_saveFailure : Reports saveFailure := by
  rintro (_ | _) <;> simp [Failure.isStoreFault, saveFailure, errorReply, reply, crashed]

theorem escapes_wireOf : Escapes (wireOf r) w ↔ ∃ e, r.wire = .error e := by
  rw [wireOf]
  cases r.wire with
  | ok v => exact iff_of_false (Store.not_escapes rfl) (by simp)
  | error e => exact iff_of_true ⟨.write e, w, rfl, rfl⟩ ⟨e, rfl⟩

theorem escapes_check : Escapes (Compile.check r room) w ↔ ∃ f, Check.recipe r room = .error f := by
  obtain ⟨w', -, hrun⟩ := Compile.run_check r w room
  cases hr : Check.recipe r room with
  | ok issues =>
    rw [hr] at hrun
    exact iff_of_false (Store.not_escapes hrun) (by simp)
  | error f =>
    rw [hr] at hrun
    rw [Store.escapes_error hrun]
    exact ⟨fun _ => ⟨f, rfl⟩, fun _ => rfl⟩

/-! ### Routes -/

theorem not_escapes_pure : ¬ Escapes (pure response) w :=
  Store.not_escapes rfl

theorem blank_getProject : Blank (getProject a id room troubles) w ↔ Escapes (a.store.loadRecipe id room troubles) w ∨
    ∃ r w', (a.store.loadRecipe id room troubles).run w = (.ok r, w') ∧ ∃ e, r.wire = .error e := by
  rw [getProject, blank_answering reports_notFound (.bind fun _ => .bind replies_ok), Store.escapes_bind_iff]
  refine or_congr_right (exists_congr fun r => exists_congr fun w' => and_congr_right fun _ => ?_)
  rw [Store.escapes_bind_iff, escapes_wireOf, or_iff_left]
  rintro ⟨v, w₁, -, hpure⟩
  exact not_escapes_pure hpure

theorem blank_listAssets : Blank (listAssets a id troubles) w ↔ Escapes (a.store.listAssets id troubles) w := by
  refine (blank_answering ?_ (.bind fun _ => replies_ok _)).trans ?_
  · rintro (_ | _) <;> simp [Failure.isStoreFault, errorReply, reply, crashed]
  · rw [Store.escapes_bind_iff, or_iff_left]
    rintro ⟨v, w₁, -, hpure⟩
    exact not_escapes_pure hpure

theorem blank_saveAs :
    Blank (saveAs a id r room troubles) w ↔ Escapes (a.store.saveRecipe (adopted id r) troubles) w ∨
      ∃ stored w', (a.store.saveRecipe (adopted id r) troubles).run w = (.ok stored, w') ∧
        ∃ f, Check.recipe stored room = .error f := by
  rw [saveAs, blank_answering reports_saveFailure (.bind fun _ => .bind fun _ => .bind fun _ => replies_ok _),
    Store.escapes_bind_iff]
  refine or_congr_right (exists_congr fun r => exists_congr fun w' => and_congr_right fun hsave => ?_)
  obtain ⟨text, htext⟩ := Store.canonical_of_saveRecipe hsave
  obtain ⟨v, hv⟩ := Recipe.wire_of_canonical htext
  rw [Store.escapes_bind_iff, escapes_check, or_iff_left]
  rintro ⟨issues, w₁, -, h⟩
  rw [wireOf, hv] at h
  exact Store.not_escapes rfl h

/-- A body that is too large, or nested too deep, is not answered for. One that holds no recipe is. -/
theorem blank_withRecipe {g : Recipe → HandlerM Response} :
    Blank (withRecipe q g room) w ↔ payload q room = .tooLarge ∨ payload q room = .tooDeep ∨
      ∃ ms r, payload q room = .object ms ∧ Recipe.ofJson w.now (.obj ms) = .ok r ∧ Blank (g r) w := by
  cases hp : payload q room with
  | object ms =>
    cases hr : Recipe.ofJson w.now (.obj ms) with
    | ok r =>
      rw [Blank, run_withRecipe hp hr, ← Blank]
      refine ⟨fun h => .inr (.inr ⟨ms, r, rfl, hr, h⟩), ?_⟩
      rintro (⟨⟨⟩⟩ | ⟨⟨⟩⟩ | ⟨ms', r', ⟨⟩, hr', h⟩)
      cases hr.symm.trans hr'
      exact h
    | bad ds =>
      have hrun : (withRecipe q g room).run w = (.ok (invalidRecipe ds), w) := by
        rw [withRecipe, withObject, hp]
        dsimp only
        rw [run_bind_ok (WorkM.run_now w), hr]
        rfl
      rw [blank_ok hrun]
      have hbody : (invalidRecipe ds).body ≠ none := Option.some_ne_none _
      refine iff_of_false hbody ?_
      rintro (⟨⟨⟩⟩ | ⟨⟨⟩⟩ | ⟨ms', r', ⟨⟩, hr', -⟩)
      cases hr.symm.trans hr'
  | invalid =>
    rw [withRecipe, withObject, hp]
    exact iff_of_false (Option.some_ne_none _) (by simp)
  | tooLarge =>
    rw [withRecipe, withObject, hp]
    exact iff_of_true rfl (.inl rfl)
  | tooDeep =>
    rw [withRecipe, withObject, hp]
    exact iff_of_true rfl (.inr (.inl rfl))

theorem escapes_saveAll_iff {files : List (String × List UInt8)} : Escapes (saveAll s id files troubles) w ↔
    ∃ done name bytes rest w', files = done ++ (name, bytes) :: rest ∧
      (saveAll s id done troubles).run w = (.ok (), w') ∧
        Escapes (s.saveAsset id name ⟨bytes.toArray⟩ troubles) w' := by
  induction files generalizing w with
  | nil =>
    refine iff_of_false (Store.not_escapes rfl) ?_
    rintro ⟨done, name, bytes, rest, w', h, -⟩
    cases (List.append_eq_nil_iff.1 h.symm).2
  | cons file files ih =>
    obtain ⟨name, bytes⟩ := file
    rw [saveAll, Store.escapes_bind_iff]
    constructor
    · rintro (h | ⟨path, w₁, hsaved, h⟩)
      · exact ⟨[], name, bytes, files, w, rfl, rfl, h⟩
      · obtain ⟨done, name', bytes', rest, w', rfl, hdone, h⟩ := ih.1 h
        exact ⟨(name, bytes) :: done, name', bytes', rest, w', rfl, (run_bind_ok hsaved).trans hdone, h⟩
    · rintro ⟨_ | ⟨file, done⟩, name', bytes', rest, w', hfiles, hdone, h⟩
      · cases hfiles
        cases hdone
        exact .inl h
      · cases hfiles
        obtain ⟨path, w₁, hsaved, hdone⟩ := run_bind_eq_ok.1 hdone
        exact .inr ⟨path, w₁, hsaved, ih.2 ⟨done, name', bytes', rest, w', rfl, hdone, h⟩⟩

theorem blank_uploadAssets : Blank (uploadAssets a id q troubles) w ↔
    (mediaType q.contentType).startsWith "multipart/" = true ∧
      (uploads? q = none ∨ ∃ files, uploads? q = some files ∧ Escapes (saveAll a.store id files troubles) w) := by
  rw [uploadAssets]
  cases (mediaType q.contentType).startsWith "multipart/" with
  | false => exact iff_of_false (Option.some_ne_none _) (by simp)
  | true =>
    rw [and_iff_right rfl]
    cases uploads? q with
    | none => exact iff_of_true rfl (.inl rfl)
    | some files =>
      refine (blank_answering reports_saveFailure (.bind fun _ => replies_ok _)).trans ?_
      rw [Store.escapes_bind_iff, or_iff_left]
      · refine ⟨fun h => .inr ⟨files, rfl, h⟩, ?_⟩
        rintro (⟨⟨⟩⟩ | ⟨files', ⟨⟩, h⟩)
        exact h
      · rintro ⟨v, w₁, -, hpure⟩
        exact not_escapes_pure hpure

/-- When a request for a project or its files is answered without a body, whatever the system refuses. -/
structure BareWhere (a : App) (room : Room) (troubles : Disk.Troubles) (w : Workspace) : Prop where
  read : ∀ q id, q.Asks "GET" (.project id) → (Bare a q room troubles w ↔
    Escapes (a.store.loadRecipe id room troubles) w ∨
      ∃ r w', (a.store.loadRecipe id room troubles).run w = (.ok r, w') ∧ ∃ e, r.wire = .error e)
  save : ∀ q id, q.Asks "PUT" (.project id) → q.isPaired = true → (Bare a q room troubles w ↔
    payload q room = .tooLarge ∨ payload q room = .tooDeep ∨
      ∃ ms r, payload q room = .object ms ∧ Recipe.ofJson w.now (.obj ms) = .ok r ∧
        (Escapes (a.store.saveRecipe (adopted id r) troubles) w ∨ ∃ stored w',
          (a.store.saveRecipe (adopted id r) troubles).run w = (.ok stored, w') ∧
            ∃ f, Check.recipe stored room = .error f))
  list : ∀ q id, q.Asks "GET" (.assets id) →
    (Bare a q room troubles w ↔ Escapes (a.store.listAssets id troubles) w)
  upload : ∀ q id, q.Asks "POST" (.assets id) → (Bare a q room troubles w ↔
    (mediaType q.contentType).startsWith "multipart/" = true ∧ (uploads? q = none ∨
      ∃ done name bytes rest w', uploads? q = some (done ++ (name, bytes) :: rest) ∧
        (saveAll a.store id done troubles).run w = (.ok (), w') ∧
          Escapes (a.store.saveAsset id name ⟨bytes.toArray⟩ troubles) w'))

theorem bareWhere (a : App) (room : Room) (troubles : Disk.Troubles) (w : Workspace) :
    BareWhere a room troubles w := by
  refine ⟨fun q id hq => ?_, fun q id hq _ => ?_, fun q id hq => ?_, fun q id hq => ?_⟩ <;>
    rw [bare_iff hq (by simp), handle]
  · rw [if_neg (by decide), blank_getProject]
  · rw [if_pos rfl, saveProject, blank_withRecipe]
    simp only [blank_saveAs]
  · rw [if_neg (by decide), blank_listAssets]
  · rw [if_pos rfl, blank_uploadAssets]
    refine and_congr_right fun _ => or_congr_right ⟨?_, ?_⟩
    · rintro ⟨files, hfiles, h⟩
      obtain ⟨done, name, bytes, rest, w', rfl, hdone, h⟩ := escapes_saveAll_iff.1 h
      exact ⟨done, name, bytes, rest, w', hfiles, hdone, h⟩
    · rintro ⟨done, name, bytes, rest, w', hfiles, hdone, h⟩
      exact ⟨_, hfiles, escapes_saveAll_iff.2 ⟨done, name, bytes, rest, w', rfl, hdone, h⟩⟩

/-- Whatever goes wrong with a stored project, and whatever the system refuses, is a fault of the store, and is answered
with a body, but for the cases that are told here: the system does not tell what is there, or makes no directory; a name
has a null byte; and what is beyond the reader, the writer or the checks. -/
theorem store_failures_escape_iff (a : App) (room : Room) (troubles : Disk.Troubles) {w : Workspace}
    (hsane : w.disk.Sane) : a.store.EscapesWhere room troubles w ∧ BareWhere a room troubles w :=
  ⟨Store.escapesWhere a.store room troubles hsane, bareWhere a room troubles w⟩

/-- Nothing escapes, and an answer has a body, where a project is asked for and there are none. -/
theorem store_failures_escape_iff_empty : (Store.sampleWorkspace []).disk.Sane ∧
    ¬ Escapes (sampleApp.store.loadRecipe "p") (Store.sampleWorkspace []) ∧
      ¬ Bare sampleApp (sampleRequest "GET" "projects/p") .standard .none (Store.sampleWorkspace []) := by
  have hsane : (Store.sampleWorkspace []).disk.Sane := ⟨Store.wellFormed_sampleWorkspace [], Node.isTree_empty⟩
  have hget : (sampleRequest "GET" "projects/p").Asks "GET" (.project "p") :=
    asks_sample (by decide +kernel) (by decide +kernel) (by decide +kernel) (by decide +kernel)
  have hmissing : (Disk.isFile (sampleApp.store.recipePath "p")).run (Store.sampleWorkspace []).disk =
      (.ok false, (Store.sampleWorkspace []).disk) := rfl
  obtain ⟨hescapes, hbare⟩ := store_failures_escape_iff sampleApp .standard .none hsane
  have hload : ¬ Escapes (sampleApp.store.loadRecipe "p") (Store.sampleWorkspace []) := by
    rw [hescapes.load "p"]
    rintro ⟨-, hfails | ⟨c, hread, -⟩⟩
    · exact Disk.not_fails hmissing hfails
    · cases hread
  refine ⟨hsane, hload, fun h => ?_⟩
  rcases (hbare.read _ "p" hget).1 h with h | ⟨r, w', hloaded, -⟩
  · exact hload h
  · cases hloaded

/-- A file stands where the directory of a project should be. -/
def occupied : Workspace :=
  Store.sampleWorkspace [("projects", .dir [("a", .file 0o644 (.bytes .empty))])]

theorem sane_occupied : occupied.disk.Sane := by
  have hdir := Node.isTree_dir_of_mem Store.isEntry_twoRecipes
  have hroot := hdir [("a", .file 0o644 (.bytes .empty))] (by simp [IsKeyed]) (by simp)
    (by simpa using Node.isTree_file _ _)
  exact ⟨Store.wellFormed_sampleWorkspace _,
    hdir [("projects", _)] (by simp [IsKeyed]) (by simp) (by simpa using hroot)⟩

/-- A save that finds a file in place of the directory fails with the refusal of the system as it is, and the
request is answered without a body. -/
theorem file_in_place_escapes : ∃ r, r.project.id = "a" ∧ Escapes (sampleApp.store.saveRecipe r) occupied ∧
    Bare sampleApp (sampleRequest "PUT" "projects/a") .standard .none occupied := by
  have hput : (sampleRequest "PUT" "projects/a").Asks "PUT" (.project "a") :=
    asks_sample (by decide +kernel) (by decide +kernel) (by decide +kernel) (by decide +kernel)
  have hdirs : (Disk.makeDirs (sampleApp.store.assetsPath "a")).run occupied.disk =
      (.error (.refused .notDirectory "projects/a/assets" none), occupied.disk) := rfl
  have hescapes : Escapes (sampleApp.store.saveRecipe (adopted "a" sampleBody.recipe)) occupied :=
    (Store.escapes_saveRecipe_iff sane_occupied).2 ⟨Store.refusal_of_isName (by decide), .inl ⟨_, _, hdirs⟩⟩
  exact ⟨_, rfl, hescapes, ((bareWhere sampleApp .standard .none occupied).save _ "a" hput (isPaired_sample _ _)).2
    (.inr (.inr ⟨_, _, payload_sample _ _, recipe_sample, .inl hescapes⟩))⟩

end Provision.Web
