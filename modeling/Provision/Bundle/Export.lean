import Provision.Bundle.Name
import Provision.Compile
import Provision.Store.Basic

/-! # Exporting a project

An export checks a stored recipe, compiles it, and writes the bundle in place of an earlier one.
Errors among the findings refuse it before anything is written, and so does a target that holds
anything but a bundle. -/

namespace Provision

namespace Bundle

def logName : String := "installforge.core.use_cases.export"

inductive Format where
  | dir
  | tarGz
  deriving DecidableEq, Repr

namespace Format

def name : Format → String
  | dir => "dir"
  | tarGz => "tar.gz"

def all : List Format := [dir, tarGz]

def ofName? (s : String) : Option Format :=
  all.find? (·.name == s)

end Format

/-- What is to be exported, and where to. -/
structure Request where
  project : String
  target : Option Path := none
  format : String := "dir"
  /-- Where bundles go that no target is given for. -/
  root : Option Path := none

inductive Outcome where
  | written (path : Path) (issues : List Issue)
  | refused (issues : List Issue)
  | failed (error : String) (issues : List Issue)
  deriving Repr

namespace Outcome

def issues : Outcome → List Issue
  | written _ is | refused is | failed _ is => is

def isWritten : Outcome → Bool
  | written _ _ => true
  | _ => false

def isRefused : Outcome → Bool
  | refused _ => true
  | _ => false

def wire (o : Outcome) : Json :=
  .obj (("ok", .bool o.isWritten) ::
    (match o with
      | written path _ => [("path", .str path.text)]
      | refused _ => []
      | failed error _ => [("error", .str error)]) ++
    [("issues", .arr (o.issues.map Issue.wire))])

end Outcome

def unsupported (format : String) : String :=
  "unsupported format " ++ quoted format ++ " (expected one of " ++
    ", ".intercalate (Format.all.map Format.name) ++ ")"

def notABundle : String := "target exists and is not a bundle"

def scriptFile : String := "install.sh"

def notesFile : String := "README.txt"

/-- Whether a target may be replaced: nothing is there, or an empty directory, or a bundle. -/
def isReplaceable (target : Path) (troubles : Disk.Troubles := .none) : DiskM Bool := do
  if !(← Disk.pathExists target troubles) then return true
  else if !(← Disk.isDir target troubles) then return false
  else if (← Disk.list target troubles).isEmpty then return true
  else if ← Disk.isFile (target.child scriptFile) troubles then
    Disk.isFile (target.child Save.recipeFile) troubles
  else return false

def targetOf (q : Request) (r : Recipe) (tempDir : Path) : Path :=
  q.target.getD (defaultDir (q.root.getD tempDir) r.project.name)

def clear (target : Path) (troubles : Disk.Troubles := .none) : DiskM Unit := do
  if ← Disk.pathExists target troubles then Disk.removeTree target troubles

def writeScripts (target : Path) (a : Artifacts) (troubles : Disk.Troubles := .none) :
    DiskM Unit := do
  Disk.writeText (target.child scriptFile) a.installSh troubles
  Disk.chmod (target.child scriptFile) 0o755 troubles
  Disk.writeText (target.child notesFile) a.readme troubles
  Disk.chmod (target.child notesFile) 0o644 troubles

/-- The archive of a directory stands beside it. -/
def archivePath (target : Path) : Path :=
  target.withName (target.name ++ ".tar.gz")

/-- Packs a directory and everything in it under its own name. -/
def pack (target : Path) (troubles : Disk.Troubles := .none) : DiskM Path := do
  if target.name = "" then throw (.emptyName target.text)
  else
    Disk.write (archivePath target) (.archive []) 0o644 troubles
    let members ← Disk.members target troubles
    Disk.write (archivePath target) (.archive members) 0o644 troubles
    return archivePath target

/-- Replaces whatever is at the target by the bundle. Answers where it is. -/
def install (s : Store) (r : Recipe) (a : Artifacts) (target : Path) (format : Format)
    (troubles : Disk.Troubles := .none) : StoreM Path := do
  WorkM.onDisk .disk (clear target troubles)
  s.writeBundle r target (some a.recipeJson) troubles
  WorkM.onDisk .disk (writeScripts target a troubles)
  match format with
  | .dir => return target
  | .tarGz => WorkM.onDisk .disk (pack target troubles)

def attempt {α : Type} (x : StoreM α) : StoreM (Except Failure α) :=
  tryCatch (Except.ok <$> x) fun f => return .error f

def refusedRecord (r : Recipe) (issues : List Issue) : Log.Record where
  severity := .info
  source := logName
  message := "Export of '" ++ r.project.name ++ "' refused: " ++
    Compile.count (issues.filter Issue.blocking).length ++ " blocking issues"

/-- Writes the bundle of a recipe whose findings hold no error. -/
def writeTo (s : Store) (r : Recipe) (issues : List Issue) (target : Path) (format : Format)
    (room : Room := .standard) (troubles : Disk.Troubles := .none) : StoreM Outcome := do
  match ← attempt (Compile.compile r none room) with
  | .error (.compile f) =>
    match f.report? with
    | some report =>
      WorkM.log .error logName ("Render failed for '" ++ r.project.name ++ "': " ++ report)
      return .failed report issues
    | none => throw (.compile f)
  | .error f => throw f
  | .ok a =>
    match ← attempt (install s r a target format troubles) with
    | .ok path =>
      WorkM.log .info logName ("Exported '" ++ r.project.name ++ "' to " ++ path.text)
      return .written path issues
    | .error f =>
      match f.refusal? with
      | some report =>
        WorkM.log .error logName ("Cannot write bundle to " ++ target.text ++ ": " ++ report)
        return .failed report issues
      | none => throw f

def exportRecipe (s : Store) (q : Request) (r : Recipe) (format : Format)
    (room : Room := .standard) (troubles : Disk.Troubles := .none) : StoreM Outcome := do
  let issues ← Compile.check r room
  if hasErrors issues then
    Compile.emitAll [refusedRecord r issues]
    return .refused issues
  else
    let target := targetOf q r (← get).tempDir
    if ← WorkM.onDisk .disk (isReplaceable target troubles) then
      writeTo s r issues target format room troubles
    else
      WorkM.log .error logName
        ("Refusing to overwrite " ++ target.text ++ ": not a bundle directory")
      return .failed notABundle issues

/-- Exports a stored project. -/
def exportProject (s : Store) (q : Request) (room : Room := .standard)
    (troubles : Disk.Troubles := .none) : StoreM Outcome := do
  match Format.ofName? q.format with
  | none => return .failed (unsupported q.format) []
  | some format =>
    let r ← s.loadRecipe q.project room troubles
    exportRecipe s q r format room troubles

end Bundle

end Provision
