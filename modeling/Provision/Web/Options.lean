import Provision.Json.Basic
import Provision.Text.Blank
import Provision.Text.Case
import Provision.Web.Percent

/-! # Options of a header value

A header value may have options behind semicolons, each a name and a value that is a word or stands
between quotes. A name that ends in an asterisk announces a value with its character set, and a
long value may be cut into parts that are numbered behind an asterisk. -/

namespace Provision.Web

/-- Blank space inside a line. -/
def isPadding (c : Char) : Bool :=
  c = ' ' || c = '\t'

def unpadded (cs : List Char) : List Char :=
  Text.strip isPadding cs

namespace Options

/-- The character sets whose bytes may be written by their numbers. -/
inductive Charset where
  | ascii
  | latin1
  | utf8
  deriving DecidableEq, Repr

def Charset.byName : List (String × Charset) :=
  [("ascii", .ascii), ("us-ascii", .ascii), ("utf-8", .utf8), ("iso-8859-1", .latin1)]

/-- The characters of a value in which bytes are written behind percent signs. -/
def Charset.decode (set : Charset) (cs : List Char) : List Char :=
  match set with
  | .utf8 => Utf8.decode (Percent.bytes cs)
  | .latin1 => Percent.chars (fun b => Char.ofNat b.toNat) cs
  | .ascii => Percent.chars (fun b => if b < 0x80 then Char.ofNat b.toNat else Utf8.replacement) cs

def isTokenChar (c : Char) : Bool :=
  c.isAlphanum || "_!#$%&'*+-.^\x60|~".toList.contains c

/-- A name followed by an equals sign, and what follows. -/
def name? (cs : List Char) : Option (List Char × List Char) :=
  let name := cs.takeWhile isTokenChar
  match cs.drop name.length with
  | '=' :: rest => if name.isEmpty then none else some (name.map Char.toLower, rest)
  | _ => none

/-- The text up to a closing quote and with it, and what follows. -/
def quotedTail? : List Char → Option (List Char × List Char)
  | [] => none
  | '\\' :: '\\' :: rest => (quotedTail? rest).map fun (t, r) => ('\\' :: '\\' :: t, r)
  | '\\' :: '\x22' :: rest => (quotedTail? rest).map fun (t, r) => ('\\' :: '\x22' :: t, r)
  | '\x22' :: rest => some (['\x22'], rest)
  | c :: rest => (quotedTail? rest).map fun (t, r) => (c :: t, r)

/-- What stands behind an equals sign. -/
inductive Value where
  | word (text rest : List Char)
  | quoted (text rest : List Char)
  /-- A quote that is not closed. -/
  | «open»
  | nothing

def valueAt (cs : List Char) : Value :=
  let token := cs.takeWhile isTokenChar
  if !token.isEmpty then .word token (cs.drop token.length)
  else
    match cs with
    | '\x22' :: rest =>
      match quotedTail? rest with
      | some (t, r) => .quoted ('\x22' :: t) r
      | none => .open
    | _ => .nothing

/-- A name and a value as they are written, quotes included. -/
abbrev Written := List Char × List Char

/-- The option at the front, and what follows it; nothing follows a quote that is not closed. -/
def optionAt (cs : List Char) : List Written × List Char :=
  match name? cs with
  | none => ([], cs)
  | some (name, rest) =>
    match valueAt rest with
    | .word text rest | .quoted text rest => ([(name, text)], rest)
    | .open => ([], [])
    | .nothing => ([], rest)

/-- The options, each up to the next semicolon. The first argument is as large as the text. -/
def writtenFrom : Nat → List Char → List Written
  | 0, _ => []
  | fuel + 1, cs =>
    let (found, rest) := optionAt cs
    match rest.dropWhile (· ≠ ';') with
    | [] => found
    | _ :: rest => found ++ writtenFrom fuel (rest.dropWhile isPadding)

/-- The options of a header value. One that begins with a semicolon has none. -/
def written (value : String) : List Written :=
  let cs := value.toList
  let rest := unpadded ((cs.dropWhile (· ≠ ';')).drop 1)
  if (unpadded (cs.takeWhile (· ≠ ';'))).isEmpty then []
  else writtenFrom (rest.length + 1) rest

/-- Takes away the backslash before another one. -/
def unescapeSlashes : List Char → List Char
  | '\\' :: '\\' :: rest => '\\' :: unescapeSlashes rest
  | c :: rest => c :: unescapeSlashes rest
  | [] => []

/-- A quote behind a backslash, or by its number, stands for itself. -/
def unescapeQuotes : List Char → List Char
  | '\\' :: '\x22' :: rest => '\x22' :: unescapeQuotes rest
  | '%' :: '2' :: '2' :: rest => '\x22' :: unescapeQuotes rest
  | c :: rest => c :: unescapeQuotes rest
  | [] => []

/-- The text between quotes, and a text without quotes as it is. -/
def unquoted (cs : List Char) : List Char :=
  if cs.head? = some '\x22' && cs.getLast? = some '\x22' then
    unescapeQuotes (unescapeSlashes ((cs.drop 1).dropLast))
  else cs

def isCharsetChar (c : Char) : Bool :=
  isTokenChar c && c ≠ '\x27'

/-- A value with the name of its character set and of a language in front, each followed by an
apostrophe. -/
def charset? (cs : List Char) : Option (List Char × List Char) :=
  match cs.dropWhile isCharsetChar with
  | '\x27' :: rest =>
    match rest.dropWhile isCharsetChar with
    | '\x27' :: value =>
      let value := value.takeWhile isTokenChar
      if value.isEmpty then none else some (cs.takeWhile isCharsetChar, value)
    | _ => none
  | _ => none

/-- A name without the number of a part behind it. -/
def partOf? (name : List Char) : Option (List Char) :=
  let digits := name.reverse.takeWhile Char.isDigit
  match name.reverse.drop digits.length with
  | '*' :: rest => if digits.isEmpty then none else some rest.reverse
  | _ => none

/-- The options so far, the character set that was named last, and the one that was used last. -/
structure State where
  named : String := ""
  used : String := ""
  values : List (String × String) := []

/-- Reads a value behind a name with an asterisk. One without a character set takes the one that is
in force; of unknown sets nothing is decoded. -/
def State.decoded (s : State) (value : List Char) : State × List Char :=
  let (named, value) :=
    match charset? value with
    | some (set, v) => (String.ofList (set.map Char.toLower), v)
    | none => (s.named, value)
  let named := if named = "" then s.used else named
  match Charset.byName.lookup named with
  | some set => ({ s with named, used := named }, set.decode value)
  | none => ({ s with named }, value)

def State.store (s : State) (name value : List Char) : State :=
  match partOf? name with
  | none => { s with values := put (String.ofList name) (String.ofList value) s.values }
  | some name =>
    let name := String.ofList name
    let before := (s.values.lookup name).getD ""
    { s with values := put name (before ++ String.ofList value) s.values }

def State.add (s : State) (o : Written) : State :=
  let (name, value) := o
  if name.getLast? = some '*' then
    let (s, value) := s.decoded value
    s.store name.dropLast (unquoted value)
  else s.store name (unquoted value)

end Options

/-- The options of a header value by their names. -/
def optionsOf (value : String) : List (String × String) :=
  ((Options.written value).foldl Options.State.add {}).values

/-- An option of a header value. -/
def option? (value name : String) : Option String :=
  (optionsOf value).lookup name

end Provision.Web
