import Provision.Text.Blank

/-! # Paths

A path is an anchor and a list of names. Empty names and names that are a single dot are dropped on
reading, two dots are kept: what they mean depends on the directories there are. -/

namespace Provision

inductive Anchor where
  | relative
  | root
  /-- Two slashes in front, which some systems tell from one. -/
  | twoSlashes
  deriving DecidableEq, Repr

structure Path where
  anchor : Anchor := .relative
  names : List String := []
  deriving DecidableEq, Repr, Inhabited

namespace Path

def isProper (name : List Char) : Bool :=
  name ≠ [] && name ≠ ['.']

def anchorOf : List Char → Anchor
  | '/' :: '/' :: '/' :: _ => .root
  | '/' :: '/' :: _ => .twoSlashes
  | '/' :: _ => .root
  | _ => .relative

def ofString (s : String) : Path where
  anchor := anchorOf s.toList
  names := ((Text.pieces (· = '/') s.toList).filter isProper).map String.ofList

def text (p : Path) : String :=
  let joined := "/".intercalate p.names
  match p.anchor with
  | .relative => if joined = "" then "." else joined
  | .root => "/" ++ joined
  | .twoSlashes => "//" ++ joined

def isAbsolute (p : Path) : Bool :=
  p.anchor ≠ .relative

/-- `q` as seen from `p`. -/
def join (p q : Path) : Path :=
  if q.isAbsolute then q else { p with names := p.names ++ q.names }

/-- The path of a name below `p`. A single dot leads nowhere. -/
def child (p : Path) (name : String) : Path :=
  p.join (ofString name)

/-- The path of an entry that is listed in the directory at `p`, whatever its name is. -/
def entry (p : Path) (name : String) : Path :=
  { p with names := p.names ++ [name] }

def parent (p : Path) : Path :=
  { p with names := p.names.dropLast }

/-- The last name; empty where there is none. -/
def name (p : Path) : String :=
  p.names.getLastD ""

def withName (p : Path) (name : String) : Path :=
  { p with names := p.names.dropLast ++ [name] }

/-- Names with two dots taken to lead to the parent, whatever there is. -/
def collapse (names : List String) : List String :=
  names.foldl (fun done n => if n = ".." then done.dropLast else done ++ [n]) []

def hasNul (p : Path) : Bool :=
  p.names.any fun n => n.toList.contains '\x00'

end Path

end Provision
