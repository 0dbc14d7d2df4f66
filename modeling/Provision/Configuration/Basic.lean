import Provision.Decimal.Text
import Provision.Disk.Path
import Provision.Recipe.Defect
import Provision.Text.Blank
import Provision.Yaml.Basic

/-! # Configuration

Where projects are kept, where the server listens and what is logged. `Configuration.ofDocument`
reads the fields of a mapping; those that are absent keep their defaults. -/

namespace Provision

structure Configuration where
  dataRoot : Path := ⟨.relative, ["data", "projects"]⟩
  host : String := "127.0.0.1"
  port : Int := 8080
  logLevel : String := "WARNING"
  logFile : Option String := none
  deriving DecidableEq, Repr

/-- A scalar as reports quote it. -/
def Yaml.shown : Yaml → Json
  | .bool b => .bool b
  | .int n => .int n
  | .float x => .float x
  | .str s => .str s
  | _ => .null

namespace Configuration

/-- The name of the record in reports. -/
def recordName : String := "Settings"

/-- Whether a number may begin with a character, zeros aside. -/
def isLeading (c : Char) : Bool :=
  c = '-' || ('1' ≤ c && c ≤ '9')

/-- Drops zeros in front, and underscores between them, but keeps a zero that is all there is
before the end or a point. `last` is the character before. -/
def dropZeros (last : Char) : List Char → Option (List Char)
  | [] => some [last]
  | c :: cs =>
    if c = '0' || c = '_' then dropZeros c cs
    else if c = '.' then some (last :: c :: cs)
    else if isLeading c then some (c :: cs)
    else none

def withoutZeros : List Char → Option (List Char)
  | [] => none
  | c :: cs => if c = '0' then dropZeros c cs else if isLeading c then some (c :: cs) else none

/-- Drops a plus sign, unless a minus sign follows. -/
def withoutPlus : List Char → List Char
  | '+' :: '-' :: cs => '+' :: '-' :: cs
  | '+' :: cs => cs
  | cs => cs

/-- Drops a point with nothing but zeros behind it. -/
def withoutFraction (cs : List Char) : List Char :=
  match (cs.dropWhile (· ≠ '.')).drop 1 with
  | [] => cs
  | zeros => if zeros.all (· = '0') then cs.takeWhile (· ≠ '.') else cs

def hasDouble (c : Char) : List Char → Bool
  | a :: b :: rest => (a = c && b = c) || hasDouble c (b :: rest)
  | _ => false

/-- Drops underscores where each stands alone between other characters. -/
def withoutUnderscores (cs : List Char) : List Char :=
  if cs.head? = some '_' || cs.getLast? = some '_' || hasDouble '_' cs then cs
  else cs.filter (· ≠ '_')

/-- Digits without zeros in front. -/
def plainDigits (ds : List Char) : Except Complaint Nat :=
  let run := ds.takeWhile Char.isDigit
  if run.isEmpty || (ds.head? = some '0' && ds.length ≠ 1) then .error .unreadableInteger
  else if Json.digitLimit < run.length then .error .oversizedInteger
  else if run.length < ds.length then .error .unreadableInteger
  else .ok (Decimal.digitsValue ds)

/-- A whole number written with a sign, zeros, underscores and an empty fraction, or without. A
minus sign may also stand behind zeros, but none may stand behind it. -/
def integerOf (s : String) : Except Complaint Int :=
  match withoutZeros (withoutPlus (Text.strip Text.isSpace s.toList)) with
  | none => .error .unreadableInteger
  | some cs =>
    match withoutUnderscores (withoutFraction cs) with
    | '-' :: ds => (plainDigits ds).map fun n => -(n : Int)
    | ds => (plainDigits ds).map fun n => (n : Int)

/-- Fractionless numbers up to this size are taken as whole numbers. -/
def largestWhole : Float := 9223372036854775808.0

def integerOfFloat (x : Float) : Except Complaint Int :=
  if !x.isFinite then .error .infiniteInteger
  else if x.floor != x then .error .fractionalInteger
  else if x.abs < largestWhole then
    .ok (if x < 0 then -((-x).toUInt64.toNat : Int) else x.toUInt64.toNat)
  else .error .oversizedInteger

def judged {α : Type} (v : Yaml) : Except Complaint α → Checked α
  | .ok a => .ok a
  | .error c => .fail c v.shown

/-- Bytes are taken as the text they encode. -/
def text : Yaml → Checked String
  | .str s => .ok s
  | .bytes b =>
    match String.fromUTF8? b with
    | some s => .ok s
    | none => .fail .undecodable .null
  | v => .fail .notString v.shown

def textOrNone : Yaml → Checked (Option String)
  | .null => .ok none
  | v => (text v).map some

def path : Yaml → Checked Path
  | .str s => .ok (.ofString s)
  | v => .fail .notPath v.shown

def integer (v : Yaml) : Checked Int :=
  match v with
  | .int n => .ok n
  | .bool b => .ok (if b then 1 else 0)
  | .float x => judged v (integerOfFloat x)
  | .str s => judged v (integerOf s)
  | .bytes b =>
    match String.fromUTF8? b with
    | some s => judged v (integerOf s)
    | none => .fail .unreadableInteger .null
  | _ => .fail .notInteger v.shown

def field {α : Type} (entries : Yaml.Entries) (key : String) (default : α)
    (read : Yaml → Checked α) : Checked α :=
  match Yaml.lookup key entries with
  | none => .ok default
  | some v => (read v).under (.key key)

def ofEntries (entries : Yaml.Entries) : Checked Configuration :=
  let d : Configuration := {}
  Configuration.mk <$> field entries "data_root" d.dataRoot path
    <*> field entries "host" d.host text
    <*> field entries "port" d.port integer
    <*> field entries "log_level" d.logLevel text
    <*> field entries "log_file" d.logFile textOrNone

def ofDocument : Yaml.Document → Checked Configuration
  | .mapping entries => ofEntries entries
  | .value v => .fail (.notRecord recordName) v.shown

end Configuration

end Provision
