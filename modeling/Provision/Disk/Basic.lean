import Provision.Decimal.Text
import Provision.Disk.Node
import Provision.Disk.Path
import Provision.Json.Basic
import Provision.Text.Quoted

/-! # The file system

A disk is a file tree, a working directory and at most one file held open. Operations take paths,
fail with the causes a system reports, and change nothing but what they name. A primitive that fails
changes nothing at all, unless the system has troubles: it may then refuse what could be done, or
break off what it has begun. -/

namespace Provision

structure Disk where
  root : Node
  cwd : List String
  /-- Where the file is that is held open. It is followed when it is moved, and lost when it is
  removed or replaced. -/
  held : Option (List String) := none

inductive Errno where
  | noEntry
  | exists
  | notDirectory
  | isDirectory
  | invalid
  | nameTooLong
  | notEmpty
  | other (number : Nat) (message : String)
  deriving DecidableEq, Repr

namespace Errno

def number : Errno → Nat
  | noEntry => 2
  | «exists» => 17
  | notDirectory => 20
  | isDirectory => 21
  | invalid => 22
  | nameTooLong => 36
  | notEmpty => 39
  | other number _ => number

def message : Errno → String
  | noEntry => "No such file or directory"
  | «exists» => "File exists"
  | notDirectory => "Not a directory"
  | isDirectory => "Is a directory"
  | invalid => "Invalid argument"
  | nameTooLong => "File name too long"
  | notEmpty => "Directory not empty"
  | other _ message => message

/-- Whether a path that is asked for counts as absent: no entry, a bad descriptor, no directory on the way, or too
many links. -/
def isAbsence (e : Errno) : Bool :=
  [2, 9, 20, 40].contains e.number

end Errno

inductive DiskFault where
  /-- A call the system refused, with the path it was given, unless the file was open by then, and, for a move, where
  to. -/
  | refused (errno : Errno) (path target : Option String)
  | sameFile (source target : String)
  | nulByte
  /-- A path without a name where one is needed. -/
  | emptyName (path : String)
  deriving DecidableEq, Repr

namespace DiskFault

def message : DiskFault → String
  | refused errno path target =>
    "[Errno " ++ Decimal.intText errno.number ++ "] " ++ errno.message ++
      (match path with
      | none => ""
      | some p => ": " ++ quoted p) ++
      match target with
      | none => ""
      | some t => " -> " ++ quoted t
  | sameFile s t =>
    "PosixPath(" ++ quoted s ++ ") and PosixPath(" ++ quoted t ++ ") are the same file"
  | nulByte => "embedded null byte"
  | emptyName path => "PosixPath(" ++ quoted path ++ ") has an empty name"

end DiskFault

/-- Disk operations; what was done before a fault stays done. -/
abbrev DiskM := ExceptT DiskFault (StateM Disk)

namespace Disk

/-- What a system is asked for, which it may refuse. -/
inductive Call where
  | look
  | makeDir
  | write
  | read
  | chmod
  | list
  | unlink
  | rename
  | removeTree
  deriving DecidableEq, Repr

/-- A refusal, with the path that it tells. -/
structure Refusal where
  errno : Errno
  path : String

/-- What keeps a system from doing what could be done. It may refuse a call, break off a write after so many bytes, or
stop a removal where some of the tree is left. All of this may depend on the path and on the disk. -/
structure Troubles where
  refuses : Call → Path → Disk → Option Refusal
  breaks : Path → Disk → Option (Nat × Errno)
  leaves : Path → Disk → Option ((List String → Bool) × Refusal)
  /-- A call that is refused is not thereby told that there is nothing. -/
  candid : ∀ p d r, refuses .look p d = some r → r.errno.isAbsence = false

/-- Nothing is broken off that has begun. -/
abbrev Troubles.unbroken (t : Troubles) : Troubles :=
  { t with breaks := fun _ _ => none }

/-- The system does all that can be done. -/
abbrev Troubles.none : Troubles where
  refuses := fun _ _ _ => Option.none
  breaks := fun _ _ => Option.none
  leaves := fun _ _ => Option.none
  candid := nofun

/-- Names have at most so many bytes. -/
def longestName : Nat := 255

/-- Paths have fewer bytes than this. -/
def pathLimit : Nat := 4096

/-- Where a path leads: to a node, or to a free name in a directory that is there. -/
inductive Spot where
  | found (at_ : List String) (node : Node)
  | absent (at_ : List String)

/-- Follows names from a directory given by its names from the root. -/
def walk (root : Node) (here : List String) : List String → Except Errno Spot
  | [] =>
    match root.get? here with
    | some n => .ok (.found here n)
    | none => .error .noEntry
  | name :: rest =>
    match root.get? here with
    | none => .error .noEntry
    | some (.file _ _) => .error .notDirectory
    | some (.dir entries) =>
      if name = ".." then walk root here.dropLast rest
      else if longestName < name.utf8ByteSize then .error .nameTooLong
      else
        match entries.lookup name, rest with
        | some _, rest => walk root (here ++ [name]) rest
        | none, [] => .ok (.absent (here ++ [name]))
        | none, _ :: _ => .error .noEntry

def start (d : Disk) (p : Path) : List String :=
  if p.isAbsolute then [] else d.cwd

def locate (d : Disk) (p : Path) : Except Errno Spot :=
  if pathLimit ≤ p.text.utf8ByteSize then .error .nameTooLong
  else walk d.root (d.start p) p.names

/-- The absolute path of a path, two dots taken to lead to the parent. Two slashes in front stay. -/
def absolute (d : Disk) (p : Path) : Path where
  anchor := if p.anchor = .twoSlashes then .twoSlashes else .root
  names := Path.collapse (d.start p ++ p.names)

/-! ### Primitives -/

def refuse {α : Type} (e : Errno) (p : Path) : DiskM α :=
  throw (.refused e p.text none)

/-- Locates a path for an operation on it, unless the system refuses that. -/
def find (p : Path) (refuses : Disk → Option Refusal := fun _ => none) : DiskM Spot := do
  if p.hasNul then throw .nulByte
  match refuses (← get) with
  | some r => throw (.refused r.errno r.path none)
  | none =>
    match (← get).locate p with
    | .ok spot => return spot
    | .error e => refuse e p

def setNode (at_ : List String) (n : Option Node) : DiskM Unit :=
  modify fun d => { d with root := d.root.set n at_ }

/-- Puts a file at a place, with a beginning of its content where the write is broken off. -/
def fill (at_ : List String) (mode : Nat) (content : Content)
    (breaks : Disk → Option (Nat × Errno) := fun _ => none) : DiskM Unit := do
  match breaks (← get) with
  | none => setNode at_ (some (.file mode content))
  | some (n, e) =>
    setNode at_ (some (.file mode (content.beginning n)))
    throw (.refused e none none)

/-- Lets go of the held file where it is at or below a place. -/
def release (at_ : List String) : DiskM Unit :=
  modify fun d => { d with held := d.held.filter (!at_.isPrefixOf ·) }

/-- Removes what is at a place. -/
def removeNode (at_ : List String) : DiskM Unit := do
  release at_
  setNode at_ none

/-- Removes some of what is below a place, and lets go of the held file where it is among that. -/
def thin (at_ : List String) (keeps : List String → Bool) (entries : List (String × Node)) : DiskM Unit := do
  setNode at_ (some (.dir (Node.leftEntries keeps [] entries)))
  modify fun d => { d with held := d.held.filter fun l => (d.root.get? l).isSome }

/-- The node a path leads to. That there is none is no fault; only names too long are, and what the system refuses for
another cause. -/
def probe (p : Path) (troubles : Troubles := .none) : DiskM (Option Node) := do
  if p.hasNul then return none
  match troubles.refuses .look p (← get) with
  | some r => throw (.refused r.errno r.path none)
  | none =>
    match (← get).locate p with
    | .ok (.found _ n) => return some n
    | .ok (.absent _) => return none
    | .error .nameTooLong => refuse .nameTooLong p
    | .error _ => return none

def pathExists (p : Path) (troubles : Troubles := .none) : DiskM Bool :=
  return (← probe p troubles).isSome

def isDir (p : Path) (troubles : Troubles := .none) : DiskM Bool :=
  return (← probe p troubles).any Node.isDir

def isFile (p : Path) (troubles : Troubles := .none) : DiskM Bool :=
  return (← probe p troubles).any Node.isFile

def mkdir (p : Path) (troubles : Troubles := .none) : DiskM Unit := do
  match ← find p (troubles.refuses .makeDir p) with
  | .found _ _ => refuse .exists p
  | .absent at_ => setNode at_ (some (.dir []))

/-- Creates a file or replaces the content of one; a file that is there keeps its mode. -/
def write (p : Path) (content : Content) (mode : Nat := 0o644)
    (troubles : Troubles := .none) : DiskM Unit := do
  match ← find p (troubles.refuses .write p) with
  | .found _ (.dir _) => refuse .isDirectory p
  | .found at_ (.file mode _) => fill at_ mode content (troubles.breaks p)
  | .absent at_ => fill at_ mode content (troubles.breaks p)

def writeText (p : Path) (text : String) (troubles : Troubles := .none) : DiskM Unit :=
  write p (.bytes text.toUTF8) 0o644 troubles

def read (p : Path) (troubles : Troubles := .none) : DiskM Content := do
  match ← find p (troubles.refuses .read p) with
  | .found _ (.file _ c) => return c
  | .found _ (.dir _) => refuse .isDirectory p
  | .absent _ => refuse .noEntry p

def chmod (p : Path) (mode : Nat) (troubles : Troubles := .none) : DiskM Unit := do
  match ← find p (troubles.refuses .chmod p) with
  | .found at_ (.file _ c) => setNode at_ (some (.file mode c))
  | .found _ (.dir _) => return
  | .absent _ => refuse .noEntry p

/-- Opens a file, which is made where there is none, and holds it. -/
def hold (p : Path) : DiskM Unit := do
  match ← find p with
  | .found _ (.dir _) => refuse .isDirectory p
  | .found at_ (.file _ _) => modify fun d => { d with held := some at_ }
  | .absent at_ =>
    setNode at_ (some (.file 0o644 (.bytes .empty)))
    modify fun d => { d with held := some at_ }

/-- Adds to the end of the held file. A file that has been lost takes nothing. -/
def append (d : Disk) (bytes : ByteArray) : Disk :=
  match d.held with
  | none => d
  | some at_ =>
    match d.root.get? at_ with
    | some (.file mode c) =>
      { d with root := d.root.set (some (.file mode (.bytes (c.toBytes ++ bytes)))) at_ }
    | _ => d

/-- The entries of a directory in the order of their names. -/
def list (p : Path) (troubles : Troubles := .none) : DiskM (List (String × Node)) := do
  match ← find p (troubles.refuses .list p) with
  | .found _ (.dir entries) => return sortByKey entries
  | .found _ (.file _ _) => refuse .notDirectory p
  | .absent _ => refuse .noEntry p

def unlink (p : Path) (troubles : Troubles := .none) : DiskM Unit := do
  match ← find p (troubles.refuses .unlink p) with
  | .found at_ (.file _ _) => removeNode at_
  | .found _ (.dir _) => refuse .isDirectory p
  | .absent _ => return

/-- Moves a file over another or to a free name, in one step. -/
def rename (source target : Path) (troubles : Troubles := .none) : DiskM Unit := do
  let refuseMove {α : Type} (e : Errno) : DiskM α :=
    throw (.refused e source.text (some target.text))
  let d ← get
  match troubles.refuses .rename source d with
  | some r => refuseMove r.errno
  | none =>
    match d.locate source, d.locate target with
    | .ok (.found s (.file mode c)), .ok (.found t (.file _ _))
    | .ok (.found s (.file mode c)), .ok (.absent t) =>
      if s ≠ t then release t
      setNode s none
      setNode t (some (.file mode c))
      modify fun d => { d with held := if d.held = some s then some t else d.held }
    | .ok (.found _ (.dir _)), .ok _ => refuseMove .notDirectory
    | .ok (.found _ (.file _ _)), .ok (.found _ (.dir _)) => refuseMove .isDirectory
    | .ok (.absent _), _ => refuseMove .noEntry
    | .error e, _ => refuseMove e
    | _, .error e => refuseMove e

/-- Empties and removes a directory. One that is named by dots alone is emptied and stays. -/
def removeTree (p : Path) (troubles : Troubles := .none) : DiskM Unit := do
  match ← find p (troubles.refuses .removeTree p) with
  | .found at_ (.dir entries) =>
    match troubles.leaves p (← get) with
    | some (keeps, r) =>
      thin at_ keeps entries
      throw (.refused r.errno r.path none)
    | none =>
      release at_
      if p.name = "" then
        setNode at_ (some (.dir []))
        refuse .invalid p
      else if p.name = ".." then
        setNode at_ (some (.dir []))
        refuse .notEmpty p
      else setNode at_ none
  | .found _ (.file _ _) => refuse .notDirectory p
  | .absent _ => refuse .noEntry p

/-- A directory may be there already. -/
def mkdirOk (p : Path) (troubles : Troubles := .none) : DiskM Unit :=
  tryCatch (mkdir p troubles) fun fault =>
    match fault with
    | .refused _ _ _ => do if !(← isDir p troubles) then throw fault
    | _ => throw fault

/-- Creates a directory and those above it; `depth` is the number of names that may be missing. -/
def makeDirsWithin (depth : Nat) (p : Path) (troubles : Troubles := .none) : DiskM Unit :=
  match depth with
  | 0 => mkdirOk p troubles
  | depth + 1 =>
    tryCatch (mkdir p troubles) fun fault =>
      match fault with
      | .refused .noEntry _ _ => do
        makeDirsWithin depth p.parent troubles
        mkdirOk p troubles
      | .refused _ _ _ => do if !(← isDir p troubles) then throw fault
      | _ => throw fault

def makeDirs (p : Path) (troubles : Troubles := .none) : DiskM Unit :=
  makeDirsWithin p.names.length p troubles

/-- A name for a temporary file that no entry has. -/
def freshName (names : List String) : String :=
  let candidates := (List.range (names.length + 1)).map fun (n : Nat) =>
    ".recipe_" ++ Decimal.intText (n : Int) ++ ".tmp"
  (candidates.find? (!names.contains ·)).getD ""

/-- Creates an empty private file in a directory and answers its absolute path. -/
def createTemp (dir : Path) (troubles : Troubles := .none) : DiskM Path := do
  let dir := (← get).absolute dir
  let p := dir.child (freshName ((← list dir).map (·.1)))
  write p (.bytes .empty) 0o600 troubles.unbroken
  return p

/-- Puts a copy at a place: first its content, to a file of the mode `old`, and then its mode. -/
def putCopy (at_ : List String) (old mode : Nat) (content : Content) (source target : Path)
    (troubles : Troubles := .none) : DiskM Unit := do
  match troubles.breaks target (← get), troubles.refuses .chmod target (← get) with
  | some (n, e), _ =>
    setNode at_ (some (.file old (content.beginning n)))
    throw (.refused e source.text (some target.text))
  | none, some r =>
    setNode at_ (some (.file old content))
    throw (.refused r.errno r.path none)
  | none, none => setNode at_ (some (.file mode content))

/-- Copies a file with its mode, into the target where that is a directory. -/
def copyFile (source target : Path) (troubles : Troubles := .none) : DiskM Unit := do
  let target := if ← isDir target troubles then target.child source.name else target
  match ← find source (troubles.refuses .read source), ← find target (troubles.refuses .write target) with
  | .found s (.file mode c), .found t (.file old _) =>
    if s = t then throw (.sameFile source.text target.text)
    else putCopy t old mode c source target troubles
  | .found _ (.file mode c), .absent t => putCopy t 0o644 mode c source target troubles
  | .found _ (.file _ _), .found _ (.dir _) => refuse .isDirectory target
  | .found _ (.dir _), _ => refuse .isDirectory source
  | .absent _, _ => refuse .noEntry source

/-- Puts a pair before the first that has no smaller key. -/
def insertByKey (x : String × List Member) :
    List (String × List Member) → List (String × List Member)
  | [] => [x]
  | y :: ys => if x.1 ≤ y.1 then x :: y :: ys else y :: insertByKey x ys

mutual

/-- A node and everything below it as members of an archive, directories before their entries and
entries in the order of their names. -/
def membersOf (name : String) : Node → List Member
  | .file mode c => [⟨name, false, mode, c.toBytes⟩]
  | .dir entries =>
    ⟨name, true, Node.dirMode, .empty⟩ :: (entryMembers name entries).flatMap (·.2)

/-- The members of each entry, in the order of the names of the entries. -/
def entryMembers (name : String) : List (String × Node) → List (String × List Member)
  | [] => []
  | (k, n) :: rest =>
    insertByKey (k, membersOf (name ++ "/" ++ k) n) (entryMembers name rest)

end

/-- The members of an archive of a directory, under its own name. -/
def members (p : Path) (troubles : Troubles := .none) : DiskM (List Member) := do
  match ← find p (troubles.refuses .read p) with
  | .found _ n => return membersOf p.name n
  | .absent _ => refuse .noEntry p

end Disk

end Provision
