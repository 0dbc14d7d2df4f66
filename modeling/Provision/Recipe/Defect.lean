import Provision.Json.Basic

/-! # Defects of a document

A document that is read into a record can be wrong in several places at once. `Checked` gathers
the defects of all parts, in the order of the parts. -/

namespace Provision

/-- One step on the way from the top of a document to a value in it. -/
inductive Place where
  | key (k : String)
  | index (i : Nat)
  deriving DecidableEq, Repr

inductive Complaint where
  | notString
  | undecodable
  | notList
  | notObject
  | notRecord (name : String)
  | missing
  | notLevel
  | notMoment
  | unreadableMoment
  | impossibleMoment
  | notPath
  | notInteger
  | unreadableInteger
  | oversizedInteger
  | fractionalInteger
  | infiniteInteger
  | unwritable (reason : String)
  deriving DecidableEq, Repr

namespace Complaint

/-- The name of the kind of defect in reports. -/
def code : Complaint → String
  | notString => "string_type"
  | undecodable => "string_unicode"
  | notList => "list_type"
  | notObject => "dict_type"
  | notRecord _ => "model_type"
  | missing => "missing"
  | notLevel => "literal_error"
  | notMoment => "datetime_type"
  | unreadableMoment => "datetime_from_date_parsing"
  | impossibleMoment => "datetime_parsing"
  | notPath => "path_type"
  | notInteger => "int_type"
  | unreadableInteger => "int_parsing"
  | oversizedInteger => "int_parsing_size"
  | fractionalInteger => "int_from_float"
  | infiniteInteger => "finite_number"
  | unwritable _ => "value_error"

def message : Complaint → String
  | notString => "Input should be a valid string"
  | undecodable =>
    "Input should be a valid string, unable to parse raw data as a unicode string"
  | notList => "Input should be a valid list"
  | notObject => "Input should be a valid dictionary"
  | notRecord name => "Input should be a valid dictionary or instance of " ++ name
  | missing => "Field required"
  | notLevel => "Input should be 'error' or 'warn'"
  | notMoment => "Input should be a valid datetime"
  | unreadableMoment => "Input should be a valid datetime or date"
  | impossibleMoment => "Input should be a valid datetime"
  | notPath => "Input is not a valid path for <class 'pathlib.Path'>"
  | notInteger => "Input should be a valid integer"
  | unreadableInteger => "Input should be a valid integer, unable to parse string as an integer"
  | oversizedInteger => "Unable to parse input string as an integer, exceeded maximum size"
  | fractionalInteger => "Input should be a valid integer, got a number with a fractional part"
  | infiniteInteger => "Input should be a finite number"
  | unwritable reason => "Value error, " ++ reason

end Complaint

/-- What is wrong with the value at a place. -/
structure Defect where
  place : List Place
  complaint : Complaint
  value : Json

/-- A key that holds a point stands between backticks, so that places can be told apart. -/
def Place.text : Place → String
  | key k => if k.toList.contains '.' then "\x60" ++ k ++ "\x60" else k
  | index i => toString i

/-- One line for the place, unless it is the whole document, and one for the complaint. -/
def Defect.lines (d : Defect) : List String :=
  (if d.place.isEmpty then [] else [".".intercalate (d.place.map Place.text)]) ++
    ["  " ++ d.complaint.message ++ " [type=" ++ d.complaint.code ++ "]"]

/-- The headline of a report about a record. -/
def defectCount (n : Nat) (record : String) : String :=
  toString n ++ (if n = 1 then " validation error for " else " validation errors for ") ++ record

/-- The whole report: the headline, and the lines of every defect. -/
def defectReport (record : String) (ds : List Defect) : String :=
  "\n".intercalate (defectCount ds.length record :: ds.flatMap Defect.lines)

/-- A value, or everything that is wrong with its document. -/
inductive Checked (α : Type) where
  | ok (a : α)
  | bad (defects : List Defect)

namespace Checked

def map {α β : Type} (f : α → β) : Checked α → Checked β
  | ok a => ok (f a)
  | bad ds => bad ds

/-- Both parts are looked at, whether the first is good or not. -/
def seq {α β : Type} (f : Checked (α → β)) (x : Unit → Checked α) : Checked β :=
  match f, x () with
  | ok f, ok a => ok (f a)
  | ok _, bad ds => bad ds
  | bad ds, ok _ => bad ds
  | bad ds, bad es => bad (ds ++ es)

instance : Applicative Checked where
  pure := ok
  map := map
  seq := seq

def fail {α : Type} (c : Complaint) (v : Json) : Checked α :=
  bad [⟨[], c, v⟩]

/-- Reports the defects of a part under the place of the part. -/
def under {α : Type} (p : Place) : Checked α → Checked α
  | ok a => ok a
  | bad ds => bad (ds.map fun d => { d with place := p :: d.place })

def toExcept {α : Type} : Checked α → Except (List Defect) α
  | ok a => .ok a
  | bad ds => .error ds

end Checked

end Provision
