/-! # JSON values

The dynamic values of this library: step settings, request bodies and stored recipes. Objects keep
the order of their members; a key stands at most once, which reading and `put` see to. -/

namespace Provision

inductive Json where
  | null
  | bool (b : Bool)
  | int (n : Int)
  | float (x : Float)
  | str (s : String)
  | arr (items : List Json)
  | obj (members : List (String × Json))
  deriving BEq, Inhabited

abbrev Members := List (String × Json)

namespace Members

def get? (ms : Members) (key : String) : Option Json :=
  List.lookup key ms

def has (ms : Members) (key : String) : Bool :=
  (ms.get? key).isSome

end Members

/-- Sets the value of a key. A key already there keeps its place. -/
def put {α : Type} (key : String) (value : α) : List (String × α) → List (String × α)
  | [] => [(key, value)]
  | (k, v) :: rest => if k = key then (k, value) :: rest else (k, v) :: put key value rest

/-- Members in rising order of their keys, by code points. -/
def sortByKey {α : Type} (ms : List (String × α)) : List (String × α) :=
  ms.mergeSort fun a b => decide (a.1 ≤ b.1)

namespace Json

mutual

/-- How many levels a value has: the containers that it holds inside each other, and `leaf` levels
more where something stands in the innermost. -/
def levels (leaf : Nat) : Json → Nat
  | .arr items => levelsOfItems leaf items + 1
  | .obj members => levelsOfMembers leaf members + 1
  | _ => leaf

def levelsOfItems (leaf : Nat) : List Json → Nat
  | [] => 0
  | v :: vs => max (levels leaf v) (levelsOfItems leaf vs)

def levelsOfMembers (leaf : Nat) : List (String × Json) → Nat
  | [] => 0
  | (_, v) :: ms => max (levels leaf v) (levelsOfMembers leaf ms)

end

/-- How many containers a value holds inside each other. -/
def depth (v : Json) : Nat :=
  v.levels 0

/-- How many values a value holds inside each other, itself included. -/
def height (v : Json) : Nat :=
  v.levels 1

mutual

/-- The value with the members of every object in it sorted by key. -/
def sorted : Json → Json
  | .arr items => .arr (sortedItems items)
  | .obj members => .obj (sortByKey (sortedMembers members))
  | v => v

def sortedItems : List Json → List Json
  | [] => []
  | v :: vs => sorted v :: sortedItems vs

def sortedMembers : List (String × Json) → List (String × Json)
  | [] => []
  | (k, v) :: ms => (k, sorted v) :: sortedMembers ms

end

mutual

/-- The value with infinities and values that are no numbers replaced by `null`. -/
def finite : Json → Json
  | .float x => if x.isFinite then .float x else .null
  | .arr items => .arr (finiteItems items)
  | .obj members => .obj (finiteMembers members)
  | v => v

def finiteItems : List Json → List Json
  | [] => []
  | v :: vs => finite v :: finiteItems vs

def finiteMembers : List (String × Json) → List (String × Json)
  | [] => []
  | (k, v) :: ms => (k, finite v) :: finiteMembers ms

end

/-- How many calls may be made inside each other where a value is read or put into a text, as a rule. Of all that the
system allows, what is left depends on the caller. -/
def freeCalls : Nat := 950

/-- Integers with more digits than this are neither read nor written. -/
def digitLimit : Nat := 4300

def fitsDigitLimit (n : Int) : Bool :=
  (Nat.toDigits 10 n.natAbs).length ≤ digitLimit

mutual

/-- Whether every integer in a value keeps to the digit limit. -/
def writable : Json → Bool
  | .int n => fitsDigitLimit n
  | .arr items => writableItems items
  | .obj members => writableMembers members
  | _ => true

def writableItems : List Json → Bool
  | [] => true
  | v :: vs => writable v && writableItems vs

def writableMembers : List (String × Json) → Bool
  | [] => true
  | (_, v) :: ms => writable v && writableMembers ms

end

/-- Empty texts and containers, zeros, `false` and `null` count as not given. -/
def isGiven : Json → Bool
  | .null => false
  | .bool b => b
  | .int n => n != 0
  | .float x => x != 0.0
  | .str s => s != ""
  | .arr items => !items.isEmpty
  | .obj members => !members.isEmpty

end Json

end Provision
