import Provision.Command.Run
import Std.Time.DateTime.Timestamp

/-! # The program

The outer layer. What a command line can look at is read from the machine into a workspace, the
command line is run on that, and what it has changed is written back. Files are replaced in one
step, so that a stop in between leaves each of them old or new. -/

namespace Provision.Machine

/-- What is kept of a file whose bytes are not needed. -/
def unread : Content := .archive []

def fileAt (withBytes : Bool) (path : String) : IO Node := do
  if !withBytes then return .file 0o644 unread
  match ← (IO.FS.readBinFile path).toBaseIO with
  | .ok b => return .file 0o644 (.bytes b)
  | .error _ => return .file 0o644 unread

def kindAt (path : String) : IO (Option IO.FS.FileType) := do
  match ← ((← IO.currentDir) / path).metadata.toBaseIO with
  | .ok m => return some m.type
  | .error _ => return none

def namesIn (path : String) : IO (List String) := do
  match ← ((← IO.currentDir) / path).readDir.toBaseIO with
  | .ok entries => return entries.toList.map (·.fileName)
  | .error _ => return []

/-- What is at a path and so many names below it. -/
def look (withBytes : Bool) : Nat → String → IO (Option Node)
  | depth, path => do
    match ← kindAt path, depth with
    | some .dir, 0 => return some (.dir [])
    | some .dir, n + 1 =>
      let entries ← (← namesIn path).filterMapM fun name => do
        return (← look withBytes n (path ++ "/" ++ name)).map fun node => (name, node)
      return some (.dir entries)
    | some .file, _ => return some (← fileAt withBytes path)
    | _, _ => return none

/-- Adds what was seen to what is known already. -/
partial def merge : Node → Node → Node
  | .dir known, .dir seen =>
    .dir (seen.foldl (fun es (name, n) =>
      Node.setEntry name (some (((es.lookup name).map (merge · n)).getD n)) es) known)
  | known, .file _ (.archive []) => known
  | _, seen => seen

/-- The directories on the way to a path, and what is at its end. -/
def lookAlong (withBytes : Bool) (depth : Nat) (root : Node) (p : Path) : IO Node := do
  let mut root := root
  for n in List.range (p.names.length + 1) do
    let names := p.names.take n
    let isEnd := n = p.names.length
    match ← look (withBytes && isEnd) (if isEnd then depth else 0) (Path.text ⟨.root, names⟩) with
    | some seen => root := merge root (names.foldr (fun name n => .dir [(name, n)]) seen)
    | none => pure ()
  return root

/-- A directory for files is three names deep: a project, its files' directory, a file. -/
def depthOfStore : Nat := 3

/-- A file with its bytes, or the names in a directory as deep as a bundle. -/
def lookAt (root : Node) (p : Path) : IO Node := do
  match ← kindAt p.text with
  | some .file => lookAlong true 0 root p
  | _ => lookAlong false depthOfStore root p

def environment : IO Configuration.Environment := do
  let names := "INSTALLFORGE_LOG_FILE_LEVEL" :: Configuration.overrides.map (·.1)
  names.filterMapM fun name => return (← IO.getEnv name).map fun value => (name, value)

def clock : IO Timestamp := do
  let micro := (← Std.Time.Timestamp.now).toNanosecondsSinceUnixEpoch.toInt / 1000
  return (Timestamp.ofSeconds? (micro / 1000000) (micro % 1000000).toNat).getD .epoch

/-- Ids start from a number that chance gives, so that no two runs share one. -/
def firstId : IO Nat := do
  return (← IO.getRandomBytes 16).toList.foldl (fun n b => n * 256 + b.toNat) 0

/-- What a word of a command line may name: all of it, or what follows an option's name. -/
def pathsOf (word : String) : List Path :=
  let value := String.ofList ((word.toList.dropWhile (· ≠ '=')).drop 1)
  let paths := ([word, String.ofList (word.toList.drop 2), value].filter (· ≠ "")).map Path.ofString
  (paths ++ (paths.filter (·.name ≠ "")).map Bundle.archivePath).filter (!·.hasNul)

/-- The files and directories that the configuration of a command line names. -/
def configured (words : List String) (env : Configuration.Environment) (w : Workspace) :
    Option Configuration :=
  let loading : Command.RunM Command.Context := do
    Command.start (← Command.readLine .main words) env
  match ((loading.run).run {}).run w with
  | ((.ok context, _), _) => some context.configuration
  | _ => none

def workspace (words : List String) (env : Configuration.Environment) : IO Workspace := do
  let cwd := (Path.ofString (toString (← IO.currentDir))).names
  let tempDir := Path.ofString ((← IO.getEnv "TMPDIR").getD "/tmp")
  let mut disk : Disk := { root := .dir [], cwd }
  let settings := (List.range (cwd.length + 1)).map fun n =>
    Path.child ⟨.root, cwd.take n⟩ Configuration.fileName
  for p in settings ++ words.flatMap pathsOf ++ [tempDir] do
    disk := { disk with root := ← lookAt disk.root (disk.absolute p) }
  let w : Workspace := { disk, tempDir, now := ← clock, issued := ← firstId }
  match configured words env w with
  | none => return w
  | some c =>
    disk := { disk with root := ← lookAlong true depthOfStore disk.root (disk.absolute c.dataRoot) }
    match c.logFile with
    | none => pure ()
    | some f => disk := { disk with root := ← lookAt disk.root (disk.absolute (.ofString f)) }
    return { w with disk }

def rightsOf (digit : Nat) : IO.AccessRight where
  read := digit / 4 % 2 = 1
  write := digit / 2 % 2 = 1
  execution := digit % 2 = 1

def writeFile (path : String) (mode : Nat) (content : Content) : IO Unit := do
  let temporary := path ++ ".new"
  IO.FS.writeBinFile temporary content.toBytes
  IO.setAccessRights temporary ⟨rightsOf (mode / 64), rightsOf (mode / 8), rightsOf mode⟩
  IO.FS.rename temporary path

def clear (path : String) : Node → IO Unit
  | .dir _ => IO.FS.removeDirAll path
  | .file _ _ => IO.FS.removeFile path

/-- Whether a file is as it was. -/
def isSame : Node → Node → Bool
  | .file m (.bytes b), .file n (.bytes c) => m = n && b == c
  | .file m (.archive []), .file n (.archive []) => m = n
  | _, _ => false

/-- Makes what is at a path, which is `old`, into `new`. -/
partial def settle (path : String) (old : Option Node) : Option Node → IO Unit
  | none => (old.map (clear path)).getD (return)
  | some (.file mode c) => do
    if old.any (isSame · (.file mode c)) then return
    if old.any Node.isDir then old.forM (clear path)
    writeFile path mode c
  | some (.dir entries) => do
    let before := (old.map Node.entries).getD []
    if !old.any Node.isDir then
      old.forM (clear path)
      IO.FS.createDir path
    for (name, n) in before do
      if (entries.lookup name).isNone then clear (path ++ "/" ++ name) n
    for (name, n) in entries do
      settle (path ++ "/" ++ name) (before.lookup name) (some n)

def failureReport : Failure → String
  | .encoding => "a file is no UTF-8 text"
  | .digits => "an integer has too many digits"
  | .nesting => "a document is nested too deep"
  | .write f => f.message
  | .compile f => f.report?.getD "the recipe cannot be compiled"
  | f => f.refusal?.getD "the path cannot be used"

def crashReport : Command.Crash → String
  | .project f => failureReport f
  | .configuration (.disk f) | .disk f => f.message
  | .configuration (.config f) => f.message
  | .configuration .encoding => "the settings file is no UTF-8 text"
  | .configuration (.scalar _) => "a value in the settings file does not fit its type"

end Provision.Machine

open Provision in
def main (words : List String) : IO UInt32 := do
  let env ← Machine.environment
  let w ← Machine.workspace words env
  let (result, after) := (Command.run words env).run w
  Machine.settle "" (some w.disk.root) (some after.disk.root)
  IO.print result.text
  IO.eprint result.errorText
  match result.crash with
  | some c => IO.eprintln ("Error: " ++ Machine.crashReport c)
  | none => pure ()
  match result.served with
  | some _ =>
    IO.eprintln "Error: this build has no listener"
    return 1
  | none => return UInt32.ofNat result.exitCode
