import Provision.Decimal.Real
import Provision.Text.Base64
import Provision.Text.Lower
import Provision.Yaml.Tag

/-! # Values of scalars

`Tag.value` gives a text the value it has as a scalar of some type, or says why it has none. -/

namespace Provision.Yaml.Tag

def withoutUnderscores (s : String) : List Char :=
  s.toList.filter (· ≠ '_')

def number (base : Nat) (cs : List Char) : Except Fault Int :=
  match Decimal.integer base cs with
  | .ok n => .ok n
  | .error .tooManyDigits => .error .tooManyDigits
  | .error .notInteger => .error (.badInteger base (String.ofList cs))

def real (cs : List Char) : Except Fault Float :=
  match Decimal.real? cs with
  | some x => .ok x
  | none => .error (.badFloat (String.ofList cs))

/-- A number without the sign in front: zeros and letters announce a base, colons stand between
digits in base sixty. -/
def unsignedInteger (cs : List Char) : Except Fault Int :=
  match cs with
  | [] => .error .emptyNumber
  | ['0'] => .ok 0
  | '0' :: 'b' :: ds => number 2 ds
  | '0' :: 'x' :: ds => number 16 ds
  | '0' :: ds => number 8 ('0' :: ds)
  | cs =>
    if cs.contains ':' then do
      let parts ← (Text.pieces (· = ':') cs).mapM (number 10)
      return parts.foldl (fun n p => n * 60 + p) 0
    else number 10 cs

def integer (s : String) : Except Fault Yaml := do
  let (negative, cs) := Decimal.signed (withoutUnderscores s)
  let n ← unsignedInteger cs
  return .int (if negative then -n else n)

/-- Adds up parts in base sixty, the lowest first. -/
def sexagesimalSum : List Float → Nat → Float → Except Fault Float
  | [], _, sum => .ok sum
  | x :: xs, base, sum =>
    let b := Decimal.ofRatio base 1
    if b.isInf then .error .oversizedFloat else sexagesimalSum xs (base * 60) (sum + x * b)

def unsignedFloat (cs : List Char) : Except Fault Float :=
  if cs.isEmpty then .error .emptyNumber
  else if cs = ".inf".toList then .ok Decimal.infinity
  else if cs = ".nan".toList then .ok Decimal.noNumber
  else if cs.contains ':' then do
    sexagesimalSum (← (Text.pieces (· = ':') cs).mapM real).reverse 1 0.0
  else real cs

def floating (s : String) : Except Fault Yaml := do
  let (negative, cs) := Decimal.signed (Text.lowerText (withoutUnderscores s))
  let x ← unsignedFloat cs
  return .float (if negative then -x else x)

def switch (s : String) : Except Fault Yaml :=
  let word := String.ofList (Text.lowerText s.toList)
  match switches.lookup word with
  | some b => .ok (.bool b)
  | none => .error (.badSwitch word)

/-- Bytes are written in plain characters only. -/
def bytes (s : String) : Except Fault Yaml :=
  if s.toList.all (· < '\x80') then
    match Base64.decode? s.toList with
    | some b => .ok (.bytes b)
    | none => .error .malformed
  else .error .malformed

/-- The value of a scalar with this tag. Other tags than those of scalars have none. -/
def value (t : Tag) (s : String) : Except Fault Yaml :=
  match t with
  | null => .ok .null
  | bool => switch s
  | int => integer s
  | float => floating s
  | binary => bytes s
  | timestamp => Date.value s.toList
  | str => .ok (.str s)
  | _ => .error .malformed

end Provision.Yaml.Tag
