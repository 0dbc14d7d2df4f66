import Provision.Proofs.Bundle.Verdicts
import Provision.Proofs.Command.Preparing
import Provision.Proofs.Disk.Bytes
import Provision.Proofs.Web.Agreement
import Provision.Proofs.Web.Contents

/-!
# The front ends on outcomes

The outcome of an export, and what is found about a recipe in a file, are told by exit codes and by answers to
requests. `front_ends_agree`: every outcome is told by the same distinction in each of them, and a recipe that can be
checked has errors for the command line exactly if it is not valid for the interface. A recipe that cannot be
checked makes both fail without a report.
-/

namespace Provision

open Web (App Request Response RequestFault Route payload respond issuesJson)

variable {a : App} {q : Request} {id : String} {ms : Members} {format : String} {outcome : Bundle.Outcome}
  {r : Recipe} {issues : List Issue} {w w' w₁ w₂ : Workspace} {words : List String} {env : Configuration.Environment}
  {c : Command.Context} {l : Command.Line} {o : Command.Output} {here there : Room} {troubles troubles' : Disk.Troubles}

/-- The answer tells the outcome: by the path, by the findings, or by the error. -/
structure Bundle.Outcome.Answered (outcome : Outcome) (answer : Except RequestFault Response) : Prop where
  success : outcome.IsSuccess →
    ∃ path, outcome.path? = some path ∧ answer = .ok (Web.ok (.obj [("path", .str path.text)]))
  refusal : outcome.IsRefusal → answer = .ok (Web.reply 400 (.obj [("issues", issuesJson outcome.issues)]))
  failure : outcome.IsFailure → ∃ error, outcome.error? = some error ∧ answer = .ok (Web.errorReply 500 error)

theorem Bundle.Outcome.answered_outcomeReply (outcome : Outcome) :
    outcome.Answered (.ok (Web.outcomeReply outcome)) := by
  cases outcome with
  | written path issues =>
    refine ⟨fun _ => ⟨path, rfl, rfl⟩, fun h => ?_, fun h => ?_⟩ <;> cases h.notWritten
  | refused issues =>
    refine ⟨fun h => ?_, fun _ => rfl, fun h => ?_⟩
    · cases h.written
    · obtain ⟨error, he, -⟩ := h.error
      cases he
  | failed error issues =>
    refine ⟨fun h => ?_, fun h => ?_, fun _ => ⟨error, rfl, rfl⟩⟩
    · cases h.written
    · cases h.error

namespace Web

/-- The format that the body of a request for an export names, if it is one. -/
def formatIn? (ms : Members) : Option String :=
  match (given? ms "format").getD (.str Bundle.Format.dir.name) with
  | .str name => if (Bundle.Format.ofName? name).isSome then some name else none
  | _ => none

/-- The export that a request asks for. -/
def bundleRequest (a : App) (id format : String) : Bundle.Request :=
  { project := id, format, root := a.exportRoot }

theorem respond_export (hq : q.Asks "POST" (.bundle id)) (hobject : payload q there = .object ms)
    (hformat : formatIn? ms = some format)
    (h : (Bundle.exportProject a.store (bundleRequest a id format) there troubles).run w = (.ok outcome, w')) :
    ((respond a q there troubles).run w).1 = .ok (outcomeReply outcome) := by
  have hrun : (exportAs a id format there troubles).run w = (.ok (outcomeReply outcome), w') :=
    run_answering_ok (run_bind_ok h)
  have hhandle : (exportProject a id q there troubles).run w = (.ok (outcomeReply outcome), w') := by
    rw [exportProject, withObject, hobject]
    unfold formatIn? at hformat
    split at hformat
    · rename_i name hname
      split at hformat
      · rename_i hknown
        cases hformat
        dsimp only
        rw [exportFrom, hname]
        dsimp only
        rw [if_pos hknown]
        exact hrun
      · cases hformat
    · cases hformat
  rw [run_respond hq (by simp), handle, hhandle]

end Web

/-- What a run and an answer tell of a recipe: whether there are errors in it, where there is room to read and to check
it. The findings are the same wherever that is so. -/
structure Recipe.Told (r : Recipe) (q : Request) (here there : Room) (result : Command.Result)
    (answer : Except RequestFault Response) : Prop where
  exits : ∀ issues, Check.recipe r here = .ok issues → result.EndsWith (if hasErrors issues then 1 else 0)
  crashes : ¬ r.IsCheckable here → result.EndsInCrash
  answered : q.isTooLarge = false → payload q there ≠ .tooDeep → ∀ issues, Check.recipe r there = .ok issues →
    answer = .ok (Web.ok (.obj [("valid", .bool (!hasErrors issues)), ("issues", issuesJson issues)]))
  unanswered : q.isTooLarge = false → payload q there = .tooDeep ∨ ¬ r.IsCheckable there → answer = .ok Web.crashed
  tooLarge : q.isTooLarge = true → answer = .ok Web.tooLarge
  same : ∀ issues issues', Check.recipe r here = .ok issues → Check.recipe r there = .ok issues' → issues = issues'

theorem Compile.run_check_stuck (h : ¬ r.IsCheckable here) (w : Workspace) :
    ∃ f w', (check r here).run w = (.error f, w') := by
  rcases hcheck : (check r here).run w with ⟨f | issues, w'⟩
  · exact ⟨f, w', rfl⟩
  · exact absurd ((exists_check_iff r w here).1 ⟨issues, by rw [hcheck]⟩) h

namespace Web

theorem Request.Asks.withBody {method : String} {route : Route} (h : q.Asks method route) (body : ByteArray) :
    ({ q with body } : Request).Asks method route := by
  obtain ⟨t, ht, hmethod, hroute⟩ := h
  exact ⟨t, ht, hmethod, hroute⟩

theorem respond_of_validate {response : Response} (hq : q.Asks "POST" .validate)
    (h : (validate q there).run w = (.ok response, w')) : ((respond a q there troubles).run w).1 = .ok response := by
  rw [run_respond hq (by simp), handle, h]

theorem respond_tooLarge (hq : q.Asks "POST" .validate) (htype : isJsonType (mediaType q.contentType) = true)
    (hlarge : q.isTooLarge = true) : ((respond a q there troubles).run w).1 = .ok tooLarge := by
  have hpayload : payload q there = .tooLarge := by
    rw [payload, htype, hlarge]
    rfl
  have hhandle : (validate q there).run w = (.ok tooLarge, w) := by
    rw [validate, withRecipe, withObject, hpayload]
    rfl
  exact respond_of_validate hq hhandle

theorem respond_tooDeep (hq : q.Asks "POST" .validate) (hdeep : payload q there = .tooDeep) :
    ((respond a q there troubles).run w).1 = .ok crashed := by
  have hhandle : (validate q there).run w = (.ok crashed, w) := by
    rw [validate, withRecipe, withObject, hdeep]
    rfl
  exact respond_of_validate hq hhandle

theorem respond_validate_stuck (hq : q.Asks "POST" .validate) (hobject : payload q there = .object ms)
    (hr : Recipe.ofJson w.now (.obj ms) = .ok r) (hstuck : ¬ r.IsCheckable there) :
    ((respond a q there troubles).run w).1 = .ok crashed := by
  obtain ⟨f, w', hcheck⟩ := Compile.run_check_stuck hstuck w
  have hhandle : (validate q there).run w = (.ok crashed, w') := by
    rw [validate, run_withRecipe hobject hr]
    exact run_tryCatch_error (run_bind_error hcheck)
  exact respond_of_validate hq hhandle

end Web

/-- A recipe that is checked in a file, and its text in the body of a request, at any time and by any server. -/
theorem told_of_file (hprepared : Command.Prepared words env w c l .validate o w₁)
    (hread : (Store.readRecipe (.ofString (l.word 0)) here troubles).run w₁ = (.ok r, w₂))
    (hbytes : w₁.disk.bytesAt (.ofString (l.word 0)) = some q.body) (hq : q.Asks "POST" .validate)
    (htype : Web.isJsonType (Web.mediaType q.contentType) = true) (a : App) (there : Room) (troubles' : Disk.Troubles)
    (w' : Workspace) :
    r.Told q here there ((Command.run words env here troubles).run w).1 ((respond a q there troubles').run w').1 := by
  obtain ⟨place, mode, content, hfile, hparse⟩ := Store.readRecipe_eq_ok hread
  obtain rfl := (Store.readOnly_readRecipe (.ofString (l.word 0))).run_eq hread
  rw [hfile.bytesAt, Option.some.injEq] at hbytes
  rw [hbytes] at hparse
  have hbody : q.isTooLarge = false → payload q there = .tooDeep ∨ ∃ t ms, payload q there = .object ms ∧
      Recipe.ofJson w'.now (.obj ms) = .ok { r with updatedAt := t } := by
    intro hsize
    obtain ⟨ms, hr, hobject | hdeep⟩ := Web.payload_of_file hparse rfl htype hsize there
    · obtain ⟨t, hr'⟩ := Recipe.ofJson_clock hr w'.now
      exact .inr ⟨t, ms, hobject, hr'⟩
    · exact .inl hdeep
  refine ⟨fun issues hissues => ?_, fun hstuck => ?_, fun hsize hread issues hissues => ?_, fun hsize hstuck => ?_,
    Web.respond_tooLarge hq htype, fun _ _ => Check.recipe_unique⟩
  · obtain ⟨w₃, -, hcheck⟩ := Compile.run_check r w₁ here
    rw [hissues] at hcheck
    exact Command.run_exits hprepared (Command.exits_validate hread hcheck o)
  · obtain ⟨f, w₃, hcheck⟩ := Compile.run_check_stuck hstuck w₁
    exact Command.run_crashes hprepared (Command.crashes_validate hread hcheck o)
  · obtain ⟨t, ms, hobject, hr⟩ := (hbody hsize).resolve_left hread
    exact Web.respond_validate hobject hr hq hissues troubles'
  · rcases hbody hsize with hdeep | ⟨t, ms, hobject, hr⟩
    · exact Web.respond_tooDeep hq hdeep
    · refine Web.respond_validate_stuck hq hobject hr (hstuck.resolve_left fun hdeep => ?_)
      cases hobject.symm.trans hdeep

/-- Every outcome of an export is a success, a refusal or a failure, never two of them, whatever the system refuses. A
command exits by whether the bundle was written, with or without JSON, and a request is answered by which of the three
it is. A recipe file is told of by a run that checks it as by the answer to its text, unless half of a surrogate pair
stands alone in that. -/
theorem front_ends_agree (words : List String) (env : Configuration.Environment) (a : App) (q : Request)
    (here there : Room) (troubles troubles' : Disk.Troubles) (w w' : Workspace) :
    (∀ s b x outcome, (Bundle.exportProject s b here troubles).run w = (.ok outcome, x) → outcome.Decided) ∧
    (∀ c l o w₁ x outcome, Command.Prepared words env w c l .export o w₁ →
      (Bundle.exportProject c.store (Command.exportRequest l) here troubles).run w₁ = (.ok outcome, x) →
      ((Command.run words env here troubles).run w).1.EndsWith (if outcome.isWritten then 0 else 1)) ∧
    (∀ id ms format x outcome, q.Asks "POST" (.bundle id) → payload q there = .object ms →
      Web.formatIn? ms = some format →
      (Bundle.exportProject a.store (Web.bundleRequest a id format) there troubles').run w' = (.ok outcome, x) →
      outcome.Answered ((respond a q there troubles').run w').1) ∧
    (∀ c l o w₁ r w₂, Command.Prepared words env w c l .validate o w₁ →
      (Store.readRecipe (.ofString (l.word 0)) here troubles).run w₁ = (.ok r, w₂) →
      w₁.disk.bytesAt (.ofString (l.word 0)) = some q.body → q.Asks "POST" .validate →
      Web.isJsonType (Web.mediaType q.contentType) = true → q.isPaired = true →
      r.Told q here there ((Command.run words env here troubles).run w).1 ((respond a q there troubles').run w').1) := by
  refine ⟨fun s b x outcome => Bundle.decided_of_export, ?_, ?_, ?_⟩
  · intro c l o w₁ x outcome hprepared hrun
    exact Command.run_exits hprepared (Command.exits_exportProject hrun o)
  · intro id ms format x outcome hq hobject hformat hrun
    rw [Web.respond_export hq hobject hformat hrun]
    exact outcome.answered_outcomeReply
  · intro c l o w₁ r w₂ hprepared hread hbytes hq htype _
    exact told_of_file hprepared hread hbytes hq htype a there troubles' w'

/-! ### The same recipe for every front end -/

namespace FrontEnds

/-- A disk with a project in the store of the default configuration, and with a recipe file. -/
def sampleWorkspace (text : String) (file : ByteArray) : Workspace where
  disk := {
    root := .dir [("data", .dir [("projects", Bundle.sampleStore text)]), ("r.json", .file 0o644 (.bytes file))]
    cwd := [] }
  tempDir := ⟨.root, ["tmp"]⟩
  now := .epoch

/-- The workspace once the log has been set up. -/
def preparedWorkspace (text : String) (file : ByteArray) : Workspace :=
  { (sampleWorkspace text file).withoutLog with log := Log.setup "WARNING" none none true }

def sampleContext : Command.Context where
  quiet := false
  debug := false
  configuration := {}

def sampleApp : App where
  dataRoot := ⟨.relative, ["data", "projects"]⟩

variable {text : String} {file : ByteArray}

theorem start_sample (text : String) (file : ByteArray) :
    Command.ends (Command.start {} []) {} (sampleWorkspace text file).withoutLog =
      ((.ok sampleContext, {}), preparedWorkspace text file) := by
  have hmissing : (sampleWorkspace text file).withoutLog.disk.Finds ⟨.root, [Configuration.fileName]⟩
      (.absent [Configuration.fileName]) := ⟨by decide, by decide, by rfl⟩
  exact Command.start_default rfl hmissing.missing

theorem prepared_project (text : String) (file : ByteArray) (json : Bool) :
    Command.Prepared ("projects" :: "export" :: (Command.jsonWords json ++ ["p"])) [] (sampleWorkspace text file)
      sampleContext ⟨Command.jsonGiven json, ["p"]⟩ .export {} (preparedWorkspace text file) :=
  Command.prepared_export (start_sample text file) (Command.isOption_eq_false (by decide)) json

theorem prepared_file (text : String) (file : ByteArray) (json : Bool) :
    Command.Prepared ("validate" :: (Command.jsonWords json ++ ["r.json"])) [] (sampleWorkspace text file)
      sampleContext ⟨Command.jsonGiven json, ["r.json"]⟩ .validate {} (preparedWorkspace text file) :=
  Command.prepared_validate (start_sample text file) (Command.isOption_eq_false (by decide)) (by decide) json

theorem isQuiet_prepared : (preparedWorkspace text file).log.IsQuiet := by
  intro now rec hr
  have hsetup : (preparedWorkspace text file).log = ⟨.warning, [⟨.warning, .bare, .console⟩], true⟩ := rfl
  rw [hsetup, Log.Setup.lines, if_pos (by rw [hr]; decide)]

theorem path_file : Path.ofString "r.json" = ⟨.relative, ["r.json"]⟩ := by decide

theorem finds_file (text : String) (file : ByteArray) :
    (preparedWorkspace text file).disk.Finds (.ofString "r.json") (.found ["r.json"] (.file 0o644 (.bytes file))) := by
  rw [path_file]
  exact ⟨by decide, by decide, by rfl⟩

theorem parse_toPretty {v : Json} {now : Timestamp} (hplain : Json.IsPlain v)
    (hdepth : v.depth ≤ Json.Limits.standard.depth) (hr : Recipe.ofJson now v = .ok r) (path : Path) :
    Store.parseRecipe path now (v.toPretty .unicode).toUTF8 = .ok r := by
  have hread : Json.read .standard (v.toPretty .unicode ++ "") = .ok v :=
    Json.read_toPretty rfl hplain hdepth Store.blanks_nil
  rw [String.append_empty] at hread
  simp only [Store.parseRecipe, Store.fromUTF8_toUTF8, hread, hr]

theorem read_file (h : Store.parseRecipe (.ofString "r.json") .epoch file = .ok r) (text : String) :
    (Store.readRecipe (.ofString "r.json")).run (preparedWorkspace text file) =
      (.ok r, preparedWorkspace text file) := by
  rw [Store.run_readRecipe (finds_file text file)]
  have hnow : (preparedWorkspace text file).now = .epoch := rfl
  rw [hnow, Content.toBytes, h]

theorem load_project (htext : Bundle.faultyRecipe.canonical = .ok text) (file : ByteArray) :
    (Store.loadRecipe ⟨⟨.relative, ["data", "projects"]⟩⟩ "p").run (preparedWorkspace text file) =
      (.ok Bundle.faultyRecipe, preparedWorkspace text file) := by
  have hstore : (preparedWorkspace text file).disk.Finds ⟨.relative, ["data", "projects"]⟩
      (.found ["data", "projects"] (Bundle.sampleStore text)) := ⟨by decide, by decide, by rfl⟩
  have hproject := hstore.entry_some Bundle.isEntry_p (k := 0) ⟨by decide, by decide⟩ rfl
  have hfile := hproject.entry_some Save.isEntry_recipeFile (k := 0) ⟨by decide, by decide⟩ rfl
  refine Store.run_loadRecipe (by decide) hfile ?_
  have hparse := Store.parse_canonical Bundle.isStorable_faulty.exact Bundle.isStorable_faulty.keyed htext
    Store.blanks_nil (Store.recipePath ⟨⟨.relative, ["data", "projects"]⟩⟩ "p") .epoch
  rwa [String.append_empty, Bundle.ordered_faulty] at hparse

theorem store_sample : sampleContext.store = ⟨⟨.relative, ["data", "projects"]⟩⟩ := rfl

theorem exportRequest_sample (json : Bool) :
    Command.exportRequest ⟨Command.jsonGiven json, ["p"]⟩ = { project := "p" } := by
  cases json with
  | false => rfl
  | true =>
    have hvalue : ∀ key, key ≠ "json" → Command.Line.value? ⟨Command.jsonGiven true, ["p"]⟩ key = none := by
      intro key hkey
      have hjson : "json" ≠ key := hkey.symm
      simp [Command.Line.value?, Command.Line.values, Command.jsonGiven, Command.Name.json, hjson]
    rw [Command.exportRequest, hvalue "out" (by decide), hvalue "format" (by decide)]
    rfl

theorem export_project (htext : Bundle.faultyRecipe.canonical = .ok text) (file : ByteArray) :
    ∃ w', (Bundle.exportProject ⟨⟨.relative, ["data", "projects"]⟩⟩ { project := "p" }).run
      (preparedWorkspace text file) = (.ok (.refused [⟨.error, "s", "path is required"⟩]), w') :=
  ⟨_, Bundle.run_exportProject_refused isQuiet_prepared rfl (load_project htext file) Bundle.check_faulty rfl⟩

/-- The text of a recipe as it is sent, which a file may hold as well. -/
def fileRequest : Request :=
  Web.sampleRequest "POST" "validate"

theorem asks_file : fileRequest.Asks "POST" .validate :=
  Web.asks_sample (by decide) (by decide) (by decide) (by decide)

theorem isJson_file : Web.isJsonType (Web.mediaType fileRequest.contentType) = true := by
  change Web.isJsonType (Web.mediaType "application/json") = true
  decide

theorem parse_file (path : Path) : Store.parseRecipe path .epoch fileRequest.body = .ok Web.sampleBody.recipe := by
  have hplain : Json.IsPlain (.obj Web.sampleBody) := by
    refine ⟨by decide, ?_, by decide⟩
    simp [Web.sampleBody, Json.WellKeyed, Json.WellKeyedMembers, Json.WellKeyedItems, IsKeyed]
  have hbody : fileRequest.body = ((Json.obj Web.sampleBody).toPretty .unicode).toUTF8 := by
    rw [fileRequest, Web.sampleRequest]
  rw [hbody]
  exact parse_toPretty hplain (by decide) Web.recipe_sample path

theorem formatIn_sample : Web.formatIn? Web.sampleBody = some "dir" := by
  rfl

end FrontEnds

open FrontEnds in
/-- A project with an error, and a file with another recipe that has one, told of with and without JSON. -/
theorem front_ends_agree_sample : ∃ text, Bundle.faultyRecipe.canonical = .ok text ∧ ∀ json : Bool,
    let w := sampleWorkspace text fileRequest.body
    let outcome := Bundle.Outcome.refused [⟨.error, "s", "path is required"⟩]
    outcome.Decided ∧
      ((Command.run ("projects" :: "export" :: (Command.jsonWords json ++ ["p"])) []).run w).1.EndsWith 1 ∧
      outcome.Answered ((respond sampleApp (Web.sampleRequest "POST" "projects/p/export")).run
        (preparedWorkspace text fileRequest.body)).1 ∧
      Web.sampleBody.recipe.Told fileRequest .standard .standard
        ((Command.run ("validate" :: (Command.jsonWords json ++ ["r.json"])) []).run w).1
        ((respond sampleApp fileRequest).run w).1 := by
  obtain ⟨text, htext⟩ := Bundle.isStorable_faulty.canonical
  refine ⟨text, htext, fun json => ?_⟩
  obtain ⟨w', hexport⟩ := export_project htext fileRequest.body
  have hasks : (Web.sampleRequest "POST" "projects/p/export").Asks "POST" (.bundle "p") :=
    Web.asks_sample (by decide) (by decide) (by decide) (by decide)
  obtain ⟨hdecided, -, hanswered, -⟩ := front_ends_agree [] [] sampleApp (Web.sampleRequest "POST" "projects/p/export")
    .standard .standard .none .none (preparedWorkspace text fileRequest.body) (preparedWorkspace text fileRequest.body)
  obtain ⟨-, hexits, -, -⟩ := front_ends_agree ("projects" :: "export" :: (Command.jsonWords json ++ ["p"])) []
    sampleApp fileRequest .standard .standard .none .none (sampleWorkspace text fileRequest.body)
    (sampleWorkspace text fileRequest.body)
  obtain ⟨-, -, -, htold⟩ := front_ends_agree ("validate" :: (Command.jsonWords json ++ ["r.json"])) []
    sampleApp fileRequest .standard .standard .none .none (sampleWorkspace text fileRequest.body)
    (sampleWorkspace text fileRequest.body)
  refine ⟨hdecided _ _ _ _ hexport, ?_, ?_, ?_⟩
  · have hends := hexits _ _ _ _ w' (.refused [⟨.error, "s", "path is required"⟩])
      (prepared_project text fileRequest.body json)
    rw [exportRequest_sample, store_sample] at hends
    exact hends hexport
  · exact hanswered "p" _ "dir" w' _ hasks (Web.payload_sample _ _) formatIn_sample hexport
  · have hread := read_file (parse_file _) text
    have hbytes := (finds_file text fileRequest.body).bytesAt
    exact htold _ _ _ _ _ _ (prepared_file text fileRequest.body json) hread hbytes asks_file isJson_file
      (Web.isPaired_sample _ _)

open Json in
theorem Json.plainWithin_nestedLists (n : Nat) : PlainWithin (n + 1) (nestedLists n) := by
  induction n with
  | zero => exact .arr (List.forall_mem_nil _)
  | succ n ih => exact .arr (List.forall_mem_singleton.2 ih)

namespace FrontEnds

theorem plainWithin_deleting {n : Nat} {mode : Json} (h : Json.PlainWithin n mode) :
    Json.PlainWithin (n + 4) (deletingDocument mode) := by
  have hstr : ∀ (k : Nat) (x : String), Json.PlainWithin k (.str x) := fun k x => .str x
  refine .obj (by simp [IsKeyed]) ?_
  simp only [List.forall_mem_cons]
  refine ⟨.obj (by simp [IsKeyed]) ?_, .arr ?_, List.forall_mem_nil _⟩
  · simp [hstr]
  · simp only [List.forall_mem_cons]
    refine ⟨.obj (by simp [IsKeyed]) ?_, List.forall_mem_nil _⟩
    simp only [List.forall_mem_cons]
    refine ⟨hstr _ _, hstr _ _, hstr _ _, .obj (by simp [IsKeyed]) ?_, List.forall_mem_nil _⟩
    simp only [List.forall_mem_cons]
    exact ⟨hstr _ _, hstr _ _, h, List.forall_mem_nil _⟩

theorem length_newline (level : Nat) :
    ((Json.newline level).flatMap String.utf8EncodeChar).length = 2 * level + 1 := by
  have hblank : String.utf8EncodeChar ' ' = [32] := rfl
  have hend : String.utf8EncodeChar '\n' = [10] := rfl
  rw [Json.newline, List.flatMap_cons, List.length_append, List.flatMap_replicate, hend, hblank]
  simp [Nat.add_comm]

theorem length_nestedLists (n level : Nat) :
    ((Json.prettyAt .unicode level (Json.nestedLists n)).flatMap String.utf8EncodeChar).length ≤
      (n + 1) * (4 * (level + n) + 6) := by
  induction n generalizing level with
  | zero =>
    change 2 ≤ _
    omega
  | succ n ih =>
    have hopen : String.utf8EncodeChar '[' = [91] := rfl
    have hclose : String.utf8EncodeChar ']' = [93] := rfl
    have hlength : ((Json.prettyAt .unicode level (Json.nestedLists (n + 1))).flatMap String.utf8EncodeChar).length =
        4 * level + 6 + ((Json.prettyAt .unicode (level + 1) (Json.nestedLists n)).flatMap
          String.utf8EncodeChar).length := by
      simp only [Json.nestedLists, Json.prettyAt, Json.prettyItems, List.flatMap_append, List.flatMap_cons,
        List.flatMap_nil, List.length_append, length_newline, List.length_nil]
      rw [hopen, hclose, List.length_singleton, List.length_singleton]
      omega
    have hinner := ih (level + 1)
    have hlevel : level + (n + 1) = level + 1 + n := by omega
    rw [hlength, hlevel, Nat.succ_mul (n + 1)]
    omega

theorem length_deleting (mode : Json) :
    ((Json.prettyAt .unicode 0 (deletingDocument mode)).flatMap String.utf8EncodeChar).length ≤
      1000 + ((Json.prettyAt .unicode 4 mode).flatMap String.utf8EncodeChar).length := by
  simp only [deletingDocument, Json.prettyAt, Json.prettyMembers, Json.prettyItems, List.flatMap_append,
    List.flatMap_cons, List.flatMap_nil, List.length_append, length_newline, List.length_nil]
  have hsigns : ∀ c ∈ ['\x7b', '\x7d', '[', ']', ':', ',', ' '], (String.utf8EncodeChar c).length = 1 := by
    simp only [List.forall_mem_cons]
    exact ⟨rfl, rfl, rfl, rfl, rfl, rfl, rfl, List.forall_mem_nil _⟩
  have hwords : ∀ x ∈ ["project", "id", "p", "name", "n", "steps", "s", "type", "delete_lines", "config", "file",
      "/etc/hosts", "match", "a", "mode"], ((Json.string .unicode x).flatMap String.utf8EncodeChar).length ≤ 20 := by
    decide
  simp only [List.forall_mem_cons, List.not_mem_nil, false_imp_iff, implies_true, and_true] at hsigns hwords
  simp only [Json.scalar, hsigns, Nat.zero_add, Nat.reduceAdd]
  omega

/-- A recipe file with any value where the way to match lines is named. -/
def deletingFile (mode : Json) : ByteArray :=
  ((deletingDocument mode).toPretty .unicode).toUTF8

def deletingRequest (mode : Json) : Request :=
  { fileRequest with body := deletingFile mode }

variable {mode : Json}

theorem body_deleting : (deletingRequest mode).body = deletingFile mode := by
  rw [deletingRequest]

theorem isTooLarge_deleting
    (h : ((Json.prettyAt .unicode 4 mode).flatMap String.utf8EncodeChar).length ≤ 2000000) :
    (deletingRequest mode).isTooLarge = false := by
  have hsize : (deletingFile mode).size ≤ Web.bodyLimit := by
    rw [deletingFile, Json.toPretty, String.toUTF8_eq_toByteArray, String.toByteArray_ofList, List.utf8Encode,
      List.size_toByteArray]
    exact Nat.le_trans (length_deleting mode) (Nat.le_trans (Nat.add_le_add_left h 1000) (by decide))
  rw [Web.Request.isTooLarge, body_deleting]
  exact decide_eq_false (Nat.not_lt.2 hsize)

theorem parse_deleting (h : Json.PlainWithin 600 mode) (path : Path) :
    Store.parseRecipe path .epoch (deletingFile mode) = .ok (deletingRecipe mode) := by
  have hplain := plainWithin_deleting h
  exact parse_toPretty hplain.1 (Nat.le_trans hplain.2 (by decide)) rfl path

theorem stuck_deleting (h : ¬ mode.HasText Json.freeCalls) : ¬ (deletingRecipe mode).IsCheckable := fun hcheckable =>
  h (hcheckable _ (List.mem_singleton_self _) .deleteLines rfl "mode" (by decide))

/-- The recipe is read, and a run that checks it exits as if there were errors in it, but the interface does not say
that it is not valid: there is no answer to the request. -/
def Disagree (mode : Json) : Prop :=
  (Store.readRecipe (.ofString "r.json")).run (preparedWorkspace "" (deletingFile mode)) =
      (.ok (deletingRecipe mode), preparedWorkspace "" (deletingFile mode)) ∧
    (deletingRequest mode).Asks "POST" .validate ∧
    ((Command.run ["validate", "r.json"] []).run (sampleWorkspace "" (deletingFile mode))).1.exitCode = 1 ∧
    ((respond sampleApp (deletingRequest mode)).run (sampleWorkspace "" (deletingFile mode))).1 = .ok Web.crashed

theorem disagree_of_noText (hplain : Json.PlainWithin 600 mode) (htext : ¬ mode.HasText Json.freeCalls)
    (hlength : ((Json.prettyAt .unicode 4 mode).flatMap String.utf8EncodeChar).length ≤ 2000000) :
    Disagree mode := by
  have hread := read_file (parse_deleting hplain _) ""
  have hbytes : (preparedWorkspace "" (deletingFile mode)).disk.bytesAt (.ofString "r.json") =
      some (deletingRequest mode).body := by
    rw [body_deleting]
    exact (finds_file "" (deletingFile mode)).bytesAt
  have hasks : (deletingRequest mode).Asks "POST" .validate := asks_file.withBody _
  have htold := told_of_file (prepared_file "" (deletingFile mode) false) hread hbytes hasks isJson_file sampleApp
    .standard .none (sampleWorkspace "" (deletingFile mode))
  have hstuck := stuck_deleting htext
  exact ⟨hread, hasks, (htold.crashes hstuck).1, htold.unanswered (isTooLarge_deleting hlength) (.inr hstuck)⟩

end FrontEnds

theorem unchecked_recipe_crashes : FrontEnds.Disagree (Json.nestedLists 599) := by
  have hplain := Json.plainWithin_nestedLists 599
  have hdeep : Json.freeCalls < Json.listCalls * 600 := by decide
  have htext := Json.not_hasText_nestedLists hdeep
  have hlength := Nat.le_trans (FrontEnds.length_nestedLists 599 4) (by decide : _ ≤ 2000000)
  exact FrontEnds.disagree_of_noText hplain htext hlength

end Provision
