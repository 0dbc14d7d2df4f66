import Provision.Json.Printer
import Provision.Recipe.Basic
import Provision.Text.Blank
import Provision.Text.Case

/-! # Settings as text, switches and lists

Settings are written loosely: a text may be given as a number, a switch as a word, a list as one
string. The functions here say what each dynamic value means where a text, a switch or a list is
wanted. -/

namespace Provision

/-- Why a value has no text: an integer in it cannot be written, or the calls that it takes are too many. -/
inductive TextFault where
  | tooManyDigits
  | tooDeep
  deriving DecidableEq, Repr

namespace Json

def plainWords : Decimal.Words := ⟨"nan", "inf"⟩

/-- The calls that a list takes besides those of its items. -/
def listCalls : Nat := 3

/-- The calls around an object that is written as JSON. Each of its levels takes one more. -/
def writerCalls : Nat := 5

/-- What comes out where there is room for the calls that it takes. -/
def taking {α : Type} (calls room : Nat) (x : Except TextFault α) : Except TextFault α :=
  if room < calls then .error .tooDeep else x

mutual

/-- What is met first, on the way through a text with one call for each level, that keeps the value from being
written. -/
def obstacle? (room : Nat) : Json → Option TextFault
  | .int n => if fitsDigitLimit n then none else some .tooManyDigits
  | .arr items =>
    match room with
    | 0 => some .tooDeep
    | room + 1 => firstObstacle? room items
  | .obj members =>
    match room with
    | 0 => some .tooDeep
    | room + 1 => memberObstacle? room members
  | _ => none

def firstObstacle? (room : Nat) : List Json → Option TextFault
  | [] => none
  | v :: vs => (obstacle? room v).or (firstObstacle? room vs)

def memberObstacle? (room : Nat) : List (String × Json) → Option TextFault
  | [] => none
  | (_, v) :: ms => (obstacle? room v).or (memberObstacle? room ms)

end

/-- An object as a text: JSON on one line with its keys sorted. -/
def objectText (room : Nat) (members : Members) : Except TextFault String :=
  let v := (Json.obj members).sorted
  match obstacle? room v with
  | some f => .error f
  | none => .ok (v.toCompact .ascii)

mutual

/-- The text of a value: nothing for `null`, words for booleans, the items between brackets for a list, JSON for an
object. `room` is how many calls may be made inside each other, whatever they are for. -/
def textWithin (room : Nat) : Json → Except TextFault String
  | .null => taking 1 room (.ok "")
  | .bool b => taking 2 room (.ok (if b then "true" else "false"))
  | .int n =>
    taking 2 room (if fitsDigitLimit n then .ok (Decimal.intText n) else .error .tooManyDigits)
  | .float x => taking 2 room (.ok (Decimal.floatText plainWords x))
  | .str s => taking 2 room (.ok s)
  | .arr items =>
    taking listCalls room
      ((textsWithin (room - listCalls) items).map fun ts => "[" ++ " ".intercalate ts ++ "]")
  | .obj members => taking writerCalls room (objectText (room - writerCalls) members)

def textsWithin (room : Nat) : List Json → Except TextFault (List String)
  | [] => .ok []
  | v :: vs => do
    let t ← textWithin room v
    let ts ← textsWithin room vs
    return t :: ts

end

def text (v : Json) (room : Nat := freeCalls) : Except TextFault String :=
  textWithin room v

def trueWords : List String := ["true", "yes", "on", "1"]

def falseWords : List String := ["false", "no", "off", "0", ""]

/-- The switch a value stands for. Strings that are no switch words, and `null`, leave the
default. -/
def flag (default : Bool) : Json → Bool
  | .null => default
  | .str s =>
    let word := Text.lower (trimmed s)
    if trueWords.contains word then true
    else if falseWords.contains word then false
    else default
  | v => v.isGiven

/-- A list of words: the texts of the items that have one, or the words of a string. The items take one call more. -/
def words (v : Json) (room : Nat := freeCalls) : Except TextFault (List String) :=
  match v with
  | .null => .ok []
  | .str s => .ok (wordsOf s)
  | .arr items => (textsWithin (room - 1) items).map fun ts => ts.filter (· ≠ "")
  | v => (v.text room).map fun t => [t]

/-- A list of lines: the texts of the items, or the lines of a string. -/
def lines (v : Json) (room : Nat := freeCalls) : Except TextFault (List String) :=
  match v with
  | .null => .ok []
  | .str s => .ok (linesOf s)
  | .arr items => textsWithin (room - 1) items
  | v => (v.text room).map fun t => [t]

end Json

end Provision
