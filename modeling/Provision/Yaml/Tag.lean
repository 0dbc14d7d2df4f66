import Provision.Text.Blank
import Provision.Yaml.Date

/-! # Types of scalars

A plain scalar has the type its text looks like: a switch, a number, a date, nothing, or else a
string. `Tag.ofPlain` finds the type. -/

namespace Provision.Yaml

inductive Tag where
  | null
  | bool
  | int
  | float
  | binary
  | timestamp
  | str
  | seq
  | map
  | set
  | pairs
  | merge
  | equals
  | other
  deriving DecidableEq, Repr, Inhabited

namespace Tag

def core : String := "tag:yaml.org,2002:"

def byName : List (String × Tag) :=
  [("null", null), ("bool", bool), ("int", int), ("float", float), ("binary", binary),
    ("timestamp", timestamp), ("str", str), ("seq", seq), ("map", map), ("set", set),
    ("omap", pairs), ("pairs", pairs), ("merge", merge), ("value", equals)]

def ofName (name : String) : Tag :=
  ((byName.find? fun t => core ++ t.1 = name).map (·.2)).getD other

end Tag

namespace Form

def unsigned : List Char → List Char
  | '-' :: cs => cs
  | '+' :: cs => cs
  | cs => cs

def isDigitOr (c : Char) : Bool :=
  c.isDigit || c = '_'

def isHexOr (c : Char) : Bool :=
  c.isDigit || ('a' ≤ c.toLower && c.toLower ≤ 'f') || c = '_'

def isOctalOr (c : Char) : Bool :=
  ('0' ≤ c && c ≤ '7') || c = '_'

def isBinaryOr (c : Char) : Bool :=
  c = '0' || c = '1' || c = '_'

/-- At least one character, all of a class. -/
def some1 (p : Char → Bool) (cs : List Char) : Bool :=
  !cs.isEmpty && cs.all p

/-- A number below sixty with one digit or two. -/
def isSixtieth : List Char → Bool
  | [d] => d.isDigit
  | [t, d] => '0' ≤ t && t ≤ '5' && d.isDigit
  | _ => false

/-- Numbers in base sixty, the first of any size and with a first digit from `least` on. -/
def isSexagesimal (least : Char) (cs : List Char) : Bool :=
  match Text.pieces (· = ':') cs with
  | (d :: ds) :: p :: ps => least ≤ d && d ≤ '9' && ds.all isDigitOr && (p :: ps).all isSixtieth
  | _ => false

def isInteger (cs : List Char) : Bool :=
  match unsigned cs with
  | '0' :: 'b' :: ds => some1 isBinaryOr ds
  | '0' :: 'x' :: ds => some1 isHexOr ds
  | '0' :: ds => ds.all isOctalOr
  | d :: ds => ('1' ≤ d && d ≤ '9' && ds.all isDigitOr) || isSexagesimal '1' (d :: ds)
  | [] => false

/-- Nothing, or an exponent with a sign. -/
def isExponent : List Char → Bool
  | [] => true
  | e :: s :: ds => (e = 'e' || e = 'E') && (s = '-' || s = '+') && some1 Char.isDigit ds
  | _ => false

/-- What follows a point: digits and an exponent. -/
def isFraction (cs : List Char) : Bool :=
  isExponent (cs.dropWhile isDigitOr)

def words (s : List String) : List (List Char) :=
  s.map String.toList

def infinities : List (List Char) := words [".inf", ".Inf", ".INF"]

def noNumbers : List (List Char) := words [".nan", ".NaN", ".NAN"]

def isFloat (cs : List Char) : Bool :=
  let u := unsigned cs
  let whole := u.takeWhile (· ≠ '.')
  noNumbers.contains cs || infinities.contains u ||
    match u.dropWhile (· ≠ '.') with
    | [] => false
    | _ :: after =>
      match whole with
      | [] => u == cs && (after.head?.any Char.isDigit) && isFraction after
      | d :: ds =>
        (d.isDigit && ds.all isDigitOr && isFraction after) ||
          (isSexagesimal '0' whole && after.all isDigitOr)

end Form

namespace Tag

def switches : List (String × Bool) :=
  [("yes", true), ("no", false), ("true", true), ("false", false), ("on", true), ("off", false)]

/-- The three ways a word may be written: small, with a capital, in capitals. -/
def spellings (w : String) : List String :=
  [w, w.capitalize, w.toUpper]

def isSwitch (s : String) : Bool :=
  switches.any fun w => (spellings w.1).contains s

def isNull (s : String) : Bool :=
  s = "" || s = "~" || (spellings "null").contains s

/-- Texts that mark a tag, an anchor or an alias and have no value of their own. -/
def marks : List String := ["!", "&", "*"]

/-- The type of a text that no line break ends. -/
def ofWord (cs : List Char) : Tag :=
  let s := String.ofList cs
  if isSwitch s then bool
  else if Form.isFloat cs then float
  else if Form.isInteger cs then int
  else if s = "<<" then merge
  else if isNull s then null
  else if Date.looksLikeDate cs then timestamp
  else if s = "=" then equals
  else if marks.contains s then other
  else str

/-- A line break at the end does not count, unless it is all there is. -/
def ofPlain (s : String) : Tag :=
  if s = "\n" then str else ofWord (withoutBreak s.toList)

end Tag

end Provision.Yaml
