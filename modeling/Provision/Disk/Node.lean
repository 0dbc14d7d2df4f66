import Provision.Disk.Packing

/-! # Trees of files

A file tree and the lookups and updates on it, by lists of names from its root. -/

namespace Provision

/-- What a file holds. Archives are kept as the list of their members. -/
inductive Content where
  | bytes (b : ByteArray)
  | archive (members : List Member)

instance : Inhabited Content := ⟨.bytes .empty⟩

/-- The bytes to be read from a file. -/
def Content.toBytes : Content → ByteArray
  | bytes b => b
  | archive members => Packing.bytes members

/-- What a file holds once so many bytes have been written to it. -/
def Content.beginning (n : Nat) (c : Content) : Content :=
  .bytes (c.toBytes.extract 0 n)

inductive Node where
  | file (mode : Nat) (content : Content)
  | dir (entries : List (String × Node))

namespace Node

instance : Inhabited Node := ⟨.dir []⟩

def isDir : Node → Bool
  | dir _ => true
  | file _ _ => false

def isFile (n : Node) : Bool :=
  !n.isDir

/-- The mode of directories, which never changes. -/
def dirMode : Nat := 0o755

def entries : Node → List (String × Node)
  | dir es => es
  | file _ _ => []

def child? (n : Node) (name : String) : Option Node :=
  n.entries.lookup name

/-- The node at the end of a list of names. -/
def get? (n : Node) : List String → Option Node
  | [] => some n
  | name :: names =>
    match n.child? name with
    | some m => m.get? names
    | none => none

/-- Replaces, adds or removes one entry of a directory. -/
def setEntry (name : String) (m : Option Node) : List (String × Node) → List (String × Node)
  | [] => (m.map fun m => (name, m)).toList
  | (k, old) :: rest =>
    if k = name then (m.map fun m => (name, m)).toList ++ rest
    else (k, old) :: setEntry name m rest

/-- Puts a node at the end of a list of names, or removes what is there. Nothing happens where the
names before the last do not lead to a directory. -/
def set (m : Option Node) : List String → Node → Node
  | [], n => m.getD n
  | [name], .dir es => .dir (setEntry name m es)
  | name :: names, .dir es =>
    match es.lookup name with
    | some n => .dir (setEntry name (some (n.set m names)) es)
    | none => .dir es
  | _ :: _, .file mode c => .file mode c

mutual

/-- What is left of a node where some of what is at or below it is kept. Places are told by their names from where
the removal began. -/
def left (keeps : List String → Bool) (here : List String) : Node → Option Node
  | .file mode c => if keeps here then some (.file mode c) else none
  | .dir es =>
    let kept := leftEntries keeps here es
    if keeps here || !kept.isEmpty then some (.dir kept) else none

def leftEntries (keeps : List String → Bool) (here : List String) :
    List (String × Node) → List (String × Node)
  | [] => []
  | (k, n) :: rest =>
    match n.left keeps (here ++ [k]) with
    | some m => (k, m) :: leftEntries keeps here rest
    | none => leftEntries keeps here rest

end

def size : Node → Nat
  | file _ c => c.toBytes.size
  | dir _ => 0

end Node

end Provision
