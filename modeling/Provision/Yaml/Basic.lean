/-! # YAML values

What a settings file holds once its scalars have been given their types. Settings are scalars, so
of a collection inside a document only its kind is kept. -/

namespace Provision

namespace Yaml

inductive Collection where
  | list
  | mapping
  | set
  deriving DecidableEq, Repr

end Yaml

inductive Yaml where
  | null
  | bool (b : Bool)
  | int (n : Int)
  | float (x : Float)
  | str (s : String)
  | bytes (b : ByteArray)
  | date
  | dateTime
  | collection (kind : Yaml.Collection)
  deriving Inhabited

namespace Yaml

def Collection.typeName : Collection → String
  | list => "list"
  | mapping => "dict"
  | set => "set"

def typeName : Yaml → String
  | null => "NoneType"
  | bool _ => "bool"
  | int _ => "int"
  | float _ => "float"
  | str _ => "str"
  | bytes _ => "bytes"
  | date => "date"
  | dateTime => "datetime"
  | collection kind => kind.typeName

/-- Whether a value can be a key. -/
def isKey : Yaml → Bool
  | collection _ => false
  | _ => true

abbrev Entries := List (Yaml × Yaml)

/-- The last entry under a name counts. -/
def lookup (name : String) : Entries → Option Yaml
  | [] => none
  | (k, v) :: rest =>
    match lookup name rest, k with
    | some w, _ => some w
    | none, .str s => if s = name then some v else none
    | none, _ => none

/-- A document: a mapping with its entries, or another value. An empty text holds `null`. -/
inductive Document where
  | mapping (entries : Entries)
  | value (v : Yaml)
  deriving Inhabited

/-- Why a text has no value: it is no YAML, or a scalar does not fit the type it was given. -/
inductive Fault where
  | malformed
  | tooDeep
  | tooManyDigits
  | noCodePoint (n : Nat)
  | badInteger (base : Nat) (text : String)
  | badFloat (text : String)
  | oversizedFloat
  | emptyNumber
  | badSwitch (text : String)
  | badTimestamp
  /-- A mapping that was given the type of moments. -/
  | timestampOfMapping
  | badMoment (reason : String)
  deriving DecidableEq, Repr

end Yaml

end Provision
