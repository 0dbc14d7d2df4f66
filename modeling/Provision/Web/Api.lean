import Provision.Bundle.Export
import Provision.Json.Spelled
import Provision.Web.Multipart
import Provision.Web.Request
import Provision.Web.Route

/-! # The web interface

What every route answers. Faults of the store become error answers; whatever else stops a request
is an answer without a body. -/

namespace Provision.Web

/-- Where the projects are that are served, and where exports go. -/
structure App where
  dataRoot : Path := Store.defaultRoot
  exportRoot : Option Path := none

def logName : String := "installforge.ui.web.server"

namespace App

def store (a : App) : Store :=
  ⟨a.dataRoot⟩

end App

/-- The members of every object in an answer are in the order of their keys. -/
def reply (status : Nat) (body : Json) : Response :=
  ⟨status, some body.sorted⟩

def ok (body : Json) : Response :=
  reply 200 body

def errorReply (status : Nat) (message : String) : Response :=
  reply status (.obj [("error", .str message)])

def notFound : Response :=
  errorReply 404 "not found"

def invalidJson : Response :=
  errorReply 400 "invalid json"

/-- A failure that no handler reports. -/
def crashed : Response :=
  ⟨500, none⟩

def tooLarge : Response :=
  ⟨413, none⟩

def placeJson : Place → Json
  | .key k => .str k
  | .index i => .int i

def defectJson (d : Defect) : Json :=
  .obj [("type", .str d.complaint.code), ("loc", .arr (d.place.map placeJson)),
    ("msg", .str d.complaint.message), ("input", d.value)]

def invalidRecipe (ds : List Defect) : Response :=
  reply 400 (.obj [("error", .str "invalid recipe"), ("details", .arr (ds.map defectJson))])

def issuesJson (issues : List Issue) : Json :=
  .arr (issues.map Issue.wire)

/-- Handlers answer in any case; what they did before a failure stays done. -/
abbrev HandlerM := WorkM Failure

def answering (onFailure : Failure → Option Response) (x : HandlerM Response) :
    HandlerM Response :=
  tryCatch x fun f => return (onFailure f).getD crashed

/-- A recipe in its wire form, which may not exist. -/
def wireOf (r : Recipe) : HandlerM Json :=
  match r.wire with
  | .ok v => return v
  | .error f => throw (.write f)

/-- Runs a handler on the object in the body. -/
def withObject (r : Request) (handle : Members → HandlerM Response)
    (room : Room := .standard) : HandlerM Response :=
  match payload r room with
  | .object ms => handle ms
  | .invalid => return invalidJson
  | .tooLarge => return tooLarge
  | .tooDeep => return crashed

/-- Runs a handler on the recipe in the body. -/
def withRecipe (r : Request) (handle : Recipe → HandlerM Response)
    (room : Room := .standard) : HandlerM Response :=
  let handleObject (ms : Members) : HandlerM Response := do
    match Recipe.ofJson (← WorkM.now) (.obj ms) with
    | .ok recipe => handle recipe
    | .bad ds => return invalidRecipe ds
  withObject r handleObject room

def listProjects (a : App) (room : Room := .standard) (troubles : Disk.Troubles := .none) : HandlerM Response :=
  answering
    (fun f =>
      match f with
      | .disk d => if d.isRefusal then some (errorReply 500 d.message) else none
      | _ => none)
    do return ok (.arr ((← a.store.listProjects room troubles).map Project.wire))

/-- The text of a member of any type. -/
def textOf (ms : Members) (key : String) : String :=
  ((ms.get? key).map Json.shown).getD ""

/-- A member that is given; `null` and empty values count as absent. -/
def given? (ms : Members) (key : String) : Option Json :=
  (ms.get? key).filter Json.isGiven

def createWith (a : App) (ms : Members) (targets : List Json)
    (troubles : Disk.Troubles := .none) : HandlerM Response :=
  answering
    (fun f =>
      match f with
      | .store s => some (errorReply 500 s.message)
      | _ => none)
    do
      let r ← a.store.createProject (textOf ms "name") (textOf ms "description")
        (targets.map Json.shown) troubles
      return ok (← wireOf r)

def createFrom (a : App) (ms : Members) (troubles : Disk.Troubles := .none) : HandlerM Response :=
  match given? ms "target" with
  | none => createWith a ms [] troubles
  | some (.arr targets) => createWith a ms targets troubles
  | some _ => return errorReply 400 "target must be a list"

def createProject (a : App) (r : Request) (room : Room := .standard)
    (troubles : Disk.Troubles := .none) : HandlerM Response :=
  withObject r (createFrom a · troubles) room

def getProject (a : App) (id : String) (room : Room := .standard)
    (troubles : Disk.Troubles := .none) : HandlerM Response :=
  answering
    (fun f => if f.isStoreFault then some notFound else none)
    do return ok (← wireOf (← a.store.loadRecipe id room troubles))

/-- The recipe of a body under the id of the path. -/
def adopted (id : String) (r : Recipe) : Recipe :=
  { r with project := { r.project with id } }

def saveFailure : Failure → Option Response
  | .store s => some (errorReply (if s.isInvalidName then 400 else 500) s.message)
  | _ => none

def saveAs (a : App) (id : String) (recipe : Recipe) (room : Room := .standard)
    (troubles : Disk.Troubles := .none) : HandlerM Response :=
  answering saveFailure do
    let stored ← a.store.saveRecipe (adopted id recipe) troubles
    let issues ← Compile.check stored room
    return ok (.obj [("recipe", ← wireOf stored), ("issues", issuesJson issues)])

def saveProject (a : App) (id : String) (r : Request) (room : Room := .standard)
    (troubles : Disk.Troubles := .none) : HandlerM Response :=
  withRecipe r (saveAs a id · room troubles) room

/-! ### Files -/

def assetJson (x : Store.Asset) : Json :=
  .obj [("filename", .str x.filename), ("size", .int x.size)]

def listAssets (a : App) (id : String) (troubles : Disk.Troubles := .none) : HandlerM Response :=
  answering
    (fun f =>
      match f with
      | .store s => some (errorReply 404 s.message)
      | _ => none)
    do return ok (.arr ((← a.store.listAssets id troubles).map assetJson))

/-- Stores files one after the other, until one is refused. -/
def saveAll (s : Store) (id : String) (files : List (String × List UInt8))
    (troubles : Disk.Troubles := .none) : HandlerM Unit :=
  match files with
  | [] => return
  | (name, bytes) :: rest => do
    let _ ← s.saveAsset id name ⟨bytes.toArray⟩ troubles
    saveAll s id rest troubles

/-- The uploaded files of a body; nothing where it is too large. -/
def uploads? (r : Request) : Option (List (String × List UInt8)) :=
  if r.isTooLarge then none
  else if mediaType r.contentType = "multipart/form-data" then
    Multipart.files? r.contentType "files" r.body.toList
  else some []

def uploadAssets (a : App) (id : String) (r : Request) (troubles : Disk.Troubles := .none) :
    HandlerM Response :=
  if !(mediaType r.contentType).startsWith "multipart/" then
    return errorReply 400 "invalid form"
  else
    match uploads? r with
    | none => return tooLarge
    | some files =>
      answering saveFailure do
        saveAll a.store id files troubles
        return ok (.obj [("status", .str "ok")])

def compileFailure : Failure → Option Response
  | .compile f => f.report?.map (errorReply 500)
  | _ => none

def preview (a : App) (id : String) (room : Room := .standard) (troubles : Disk.Troubles := .none) :
    HandlerM Response :=
  answering
    (fun f => if f.isStoreFault then some notFound else compileFailure f)
    do return ok (← Compile.compile (← a.store.loadRecipe id room troubles) none room).wire

def outcomeReply : Bundle.Outcome → Response
  | .written path _ => ok (.obj [("path", .str path.text)])
  | .refused issues => reply 400 (.obj [("issues", issuesJson issues)])
  | .failed error _ => errorReply 500 error

def exportFailure : Failure → Option Response
  | .store s => some (if s.isNotFound then notFound else errorReply 500 s.message)
  | _ => none

def exportAs (a : App) (id : String) (format : String) (room : Room := .standard)
    (troubles : Disk.Troubles := .none) : HandlerM Response :=
  answering exportFailure do
    return outcomeReply
      (← Bundle.exportProject a.store { project := id, format, root := a.exportRoot } room troubles)

def exportFrom (a : App) (id : String) (ms : Members) (room : Room := .standard)
    (troubles : Disk.Troubles := .none) : HandlerM Response :=
  match (given? ms "format").getD (.str Bundle.Format.dir.name) with
  | .str s =>
    if (Bundle.Format.ofName? s).isSome then exportAs a id s room troubles
    else return errorReply 400 ("unsupported format: " ++ s)
  | v => return errorReply 400 ("unsupported format: " ++ v.shown)

def exportProject (a : App) (id : String) (r : Request) (room : Room := .standard)
    (troubles : Disk.Troubles := .none) : HandlerM Response :=
  withObject r (exportFrom a id · room troubles) room

def validity (recipe : Recipe) (room : Room := .standard) : HandlerM Response :=
  answering (fun _ => none) do
    let issues ← Compile.check recipe room
    return ok (.obj [("valid", .bool (!hasErrors issues)), ("issues", issuesJson issues)])

def validate (r : Request) (room : Room := .standard) : HandlerM Response :=
  withRecipe r (validity · room) room

def recipesLog : String := "installforge.ui.web.routes_recipes"

def compileReply (recipe : Recipe) (room : Room := .standard) : HandlerM Response := do
  match ← Bundle.attempt (Compile.compile recipe none room) with
  | .ok a => return ok a.wire
  | .error (.compile f) =>
    match f.report? with
    | some report =>
      WorkM.log .error recipesLog ("Render failed: " ++ report)
      return errorReply 500 report
    | none => return crashed
  | .error _ => return crashed

def render (r : Request) (room : Room := .standard) : HandlerM Response :=
  withRecipe r (compileReply · room) room

def handle (a : App) (r : Request) (method : String) (route : Route)
    (room : Room := .standard) (troubles : Disk.Troubles := .none) : HandlerM Response :=
  match route with
  | .projects =>
    if method = "POST" then createProject a r room troubles else listProjects a room troubles
  | .project id =>
    if method = "PUT" then saveProject a id r room troubles else getProject a id room troubles
  | .assets id => if method = "POST" then uploadAssets a id r troubles else listAssets a id troubles
  | .preview id => preview a id room troubles
  | .bundle id => exportProject a id r room troubles
  | .validate => validate r room
  | .render => render r room
  | .staticFile => return ⟨404, none⟩

/-- An answer to a request for the head alone has no body. The method is taken as it is written. -/
def withoutBody (method : String) (r : Response) : Response :=
  if method = "HEAD" then { r with body := none } else r

def answer (a : App) (r : Request) (t : Target) (room : Room := .standard)
    (troubles : Disk.Troubles := .none) : StateM Workspace Response := do
  let method := Text.upper r.method
  match t.destination method with
  | .nowhere => return ⟨404, none⟩
  | .wrongMethod => return ⟨405, none⟩
  | .noSocket => return ⟨400, none⟩
  | .elsewhere => return ⟨308, none⟩
  | .route route =>
    if method = "OPTIONS" then return ⟨200, none⟩
    else
      match ← (handle a r method route room troubles).run with
      | .ok response => return withoutBody r.method response
      | .error _ => return crashed

/-- Answers a request. `room` is how many calls may be made inside each other in a handler. -/
def respond (a : App) (r : Request) (room : Room := .standard) (troubles : Disk.Troubles := .none) :
    StateM Workspace (Except RequestFault Response) :=
  match r.target? with
  | .error f => return .error f
  | .ok t => return .ok (← answer a r t room troubles)

end Provision.Web
