import Provision.Json.Reader
import Provision.Recipe.Decode
import Provision.Store.Save
import Provision.Workspace

/-! # Stored projects

A store is a directory with one directory for each project, named by its id. It holds the recipe
and a directory with the uploaded files. -/

namespace Provision

structure Store where
  root : Path
  deriving DecidableEq, Repr

abbrev StoreM := WorkM Failure

namespace Store

/-- The name under which the store logs. -/
def logName : String := "installforge.core.persistence.store"

def defaultRoot : Path := ⟨.relative, ["data", "projects"]⟩

def forbidden (c : Char) : Bool :=
  c = '/' || c = '\\'

def hasTwoDots : List Char → Bool
  | '.' :: '.' :: _ => true
  | _ :: cs => hasTwoDots cs
  | [] => false

/-- Whether a text may name a project or a file. -/
def isName (s : String) : Bool :=
  s ≠ "" && !hasTwoDots s.toList && !s.toList.any forbidden

def checkName (s : String) : StoreM Unit :=
  if isName s then return else throw (.store (.invalidName s))

/-- The path of anything named in a directory, whether the name is a good one or not. -/
def entryPath (s : Store) (id : String) : Path :=
  s.root.child id

def recipePath (s : Store) (id : String) : Path :=
  (s.entryPath id).child Save.recipeFile

def assetsPath (s : Store) (id : String) : Path :=
  (s.entryPath id).child Save.assetsDir

def projectDir (s : Store) (id : String) : StoreM Path := do
  checkName id
  return s.entryPath id

def assetsDir (s : Store) (id : String) : StoreM Path := do
  checkName id
  return s.assetsPath id

/-- Makes the directory of a project and the one for its files. -/
def ensureProjectDir (s : Store) (id : String) (troubles : Disk.Troubles := .none) :
    StoreM Path := do
  let dir ← s.projectDir id
  WorkM.onDisk .disk (Disk.makeDirs (s.assetsPath id) troubles)
  return dir

/-- The recipe in the bytes of a file; `now` dates one that carries no date. -/
def parseRecipe (path : Path) (now : Timestamp) (bytes : ByteArray)
    (room : Room := .standard) : Except Failure Recipe :=
  match String.fromUTF8? bytes with
  | none => .error .encoding
  | some text =>
    match Json.read (.within room.reading) text with
    | .error .malformed => .error (.store (.malformed path))
    | .error .tooManyDigits => .error .digits
    | .error .tooDeep => .error .nesting
    | .ok v =>
      match Recipe.ofJson now v with
      | .ok r => .ok r
      | .bad ds => .error (.store (.invalid path ds))

/-- The recipe in a file. -/
def readRecipe (path : Path) (room : Room := .standard)
    (troubles : Disk.Troubles := .none) : StoreM Recipe := do
  if !(← WorkM.onDisk .disk (Disk.isFile path troubles)) then throw (.store (.recipeNotFound path))
  let content ← WorkM.onDisk (.wrapping (.unreadable path)) (Disk.read path troubles)
  liftExcept (parseRecipe path (← WorkM.now) content.toBytes room)
where
  liftExcept {α : Type} : Except Failure α → StoreM α
    | .ok a => return a
    | .error f => throw f

def loadRecipe (s : Store) (id : String) (room : Room := .standard)
    (troubles : Disk.Troubles := .none) : StoreM Recipe := do
  checkName id
  readRecipe (s.recipePath id) room troubles

/-- Saves a recipe with the date of the save, and answers what is stored. -/
def saveRecipe (s : Store) (r : Recipe) (troubles : Disk.Troubles := .none) : StoreM Recipe := do
  if r.project.id = "" then throw (.store .noProjectId)
  let stored := { r with updatedAt := ← WorkM.now }
  let dir ← s.projectDir stored.project.id
  let save : Save := { dir, text := stored.canonical.map (· ++ "\n") }
  let w ← get
  let (result, disk) := save.run troubles w.disk
  set { w with disk }
  match result with
  | .ok () =>
    WorkM.log .debug logName ("Recipe saved to " ++ save.target.text)
    return stored
  | .error f =>
    match f with
    | .store (.recipeNotWritten path cause) =>
      WorkM.log .error logName ("Failed to save recipe to " ++ path.text ++ ": " ++ cause.message)
    | _ => pure ()
    throw f

/-- Stores a starter recipe under a fresh id. No targets mean the default ones. -/
def createProject (s : Store) (name description : String) (targets : List String)
    (troubles : Disk.Troubles := .none) : StoreM Recipe := do
  let starter := Recipe.starter (← WorkM.freshId) name (← WorkM.now)
  let project := { starter.project with
    description, target := if targets.isEmpty then starter.project.target else targets }
  let stored ← s.saveRecipe { starter with project } troubles
  WorkM.log .info logName ("Created project '" ++ name ++ "' (" ++ stored.project.id ++ ")")
  return stored

/-- The project in an entry of the root, if it is a directory with a good recipe. -/
def projectIn (entry : Path) (room : Room := .standard) (troubles : Disk.Troubles := .none) :
    StoreM (Option Project) := do
  if !(← WorkM.onDisk .disk (Disk.isDir entry troubles)) then return none
  let path := entry.child Save.recipeFile
  tryCatch (some <$> Recipe.project <$> readRecipe path room troubles) fun f =>
    match f with
    | .store fault => do
      WorkM.log .debug logName ("Skipping " ++ entry.text ++ ": " ++ fault.message)
      return none
    | _ => throw f

/-- The projects of entries, in their order. -/
def projectsIn (entries : List Path) (room : Room := .standard)
    (troubles : Disk.Troubles := .none) : StoreM (List Project) := do
  match entries with
  | [] => return []
  | entry :: rest => do
    let p ← projectIn entry room troubles
    let ps ← projectsIn rest room troubles
    return p.toList ++ ps

/-- The projects with a good recipe, in the order of their ids. -/
def listProjects (s : Store) (room : Room := .standard) (troubles : Disk.Troubles := .none) :
    StoreM (List Project) := do
  if !(← WorkM.onDisk .disk (Disk.isDir s.root troubles)) then return []
  let entries ← WorkM.onDisk .disk (Disk.list s.root troubles)
  projectsIn (entries.map fun (name, _) => s.root.child name) room troubles

structure Asset where
  filename : String
  size : Nat
  deriving DecidableEq, Repr

def fileEntries (entries : List (String × Node)) : List (String × Node) :=
  entries.filter (·.2.isFile)

/-- The files among the entries of a directory. Each entry is asked for by its path. -/
def assetsIn (dir : Path) (names : List String) (troubles : Disk.Troubles := .none) :
    DiskM (List Asset) := do
  match names with
  | [] => return []
  | name :: rest => do
    let found ← Disk.probe (dir.entry name) troubles
    let assets ← assetsIn dir rest troubles
    return (found.filter Node.isFile).toList.map (⟨name, ·.size⟩) ++ assets

def listAssets (s : Store) (id : String) (troubles : Disk.Troubles := .none) : StoreM (List Asset) := do
  let dir ← s.assetsDir id
  if !(← WorkM.onDisk .disk (Disk.isDir dir troubles)) then throw (.store (.assetsNotFound id))
  let entries ← WorkM.onDisk .disk (Disk.list dir troubles)
  WorkM.onDisk .disk (assetsIn dir (entries.map (·.1)) troubles)

/-- Stores an uploaded file, in place of one of the same name. -/
def saveAsset (s : Store) (id filename : String) (bytes : ByteArray)
    (troubles : Disk.Troubles := .none) : StoreM Path := do
  checkName filename
  let _ ← s.ensureProjectDir id troubles
  let target := (s.assetsPath id).child filename
  WorkM.onDisk (.wrapping (.assetNotWritten target)) (Disk.write target (.bytes bytes) 0o644 troubles)
  WorkM.log .info logName ("Saved asset " ++ filename ++ " for project " ++ id)
  return target

def copyAll (target : Path) (paths : List Path) (troubles : Disk.Troubles := .none) : DiskM Unit :=
  match paths with
  | [] => return
  | p :: ps => do
    Disk.copyFile p (target.child p.name) troubles
    copyAll target ps troubles

/-- Copies the files of a directory, where there is one. -/
def copyFiles (source target : Path) (troubles : Disk.Troubles := .none) : DiskM Unit := do
  if ← Disk.isDir source troubles then
    let entries ← Disk.list source troubles
    copyAll target ((fileEntries entries).map fun (name, _) => source.child name) troubles

/-- Writes a recipe and the files of its project into a directory. The files are looked up by the
id that the recipe carries. -/
def writeBundle (s : Store) (r : Recipe) (target : Path) (recipeText : Option String)
    (troubles : Disk.Troubles := .none) : StoreM Unit := do
  let assets := target.child Save.assetsDir
  let wrapped {α : Type} : DiskM α → StoreM α := WorkM.onDisk (.wrapping (.bundleNotWritten target))
  wrapped (Disk.makeDirs assets troubles)
  let text ←
    match recipeText, r.canonical with
    | some t, _ => pure t
    | none, .ok t => pure t
    | none, .error f => throw (.write f)
  wrapped (Disk.writeText (target.child Save.recipeFile) text troubles)
  wrapped (copyFiles (s.assetsPath r.project.id) assets troubles)
  WorkM.log .debug logName ("Bundle files written to " ++ target.text)

end Store

end Provision
