import Provision.Decimal.Text
import Provision.Json.Basic
import Provision.Text.Quoted

/-! # JSON text

`compact` writes a value on one line, `pretty` one item a line. Both take the repertoire of
characters that may stand unescaped in a string. -/

namespace Provision.Json

/-- Which characters stand for themselves, besides quotes, backslashes and controls, which never
do. -/
inductive Repertoire where
  | unicode
  | ascii
  deriving DecidableEq, Repr

def numberWords : Decimal.Words := ⟨"NaN", "Infinity"⟩

def unit (n : Nat) : List Char :=
  '\\' :: 'u' :: Text.hex 4 n

/-- A character by its number, in two UTF-16 units where it needs two. -/
def numbered (c : Char) : List Char :=
  let n := c.toNat
  if n < 0x10000 then unit n
  else unit (0xD800 + (n - 0x10000) / 0x400) ++ unit (0xDC00 + (n - 0x10000) % 0x400)

def Repertoire.holds (r : Repertoire) (c : Char) : Bool :=
  match r with
  | .unicode => ' ' ≤ c
  | .ascii => ' ' ≤ c && c ≤ '~'

def escapeChar (r : Repertoire) (c : Char) : List Char :=
  match c with
  | '\x22' => ['\\', '\x22']
  | '\\' => ['\\', '\\']
  | '\n' => ['\\', 'n']
  | '\r' => ['\\', 'r']
  | '\t' => ['\\', 't']
  | '\x08' => ['\\', 'b']
  | '\x0c' => ['\\', 'f']
  | c => if r.holds c then [c] else numbered c

def string (r : Repertoire) (s : String) : List Char :=
  '\x22' :: s.toList.flatMap (escapeChar r) ++ ['\x22']

/-- The text of a value that is no container. -/
def scalar (r : Repertoire) : Json → List Char
  | .bool b => (if b then "true" else "false").toList
  | .int n => (Decimal.intText n).toList
  | .float x => (Decimal.floatText numberWords x).toList
  | .str s => string r s
  | _ => "null".toList

mutual

def compact (r : Repertoire) : Json → List Char
  | .arr items => '[' :: compactItems r items
  | .obj members => '\x7b' :: compactMembers r members
  | v => scalar r v

/-- The items of an array, up to and with the closing bracket. -/
def compactItems (r : Repertoire) : List Json → List Char
  | [] => [']']
  | [v] => compact r v ++ [']']
  | v :: vs => compact r v ++ ',' :: ' ' :: compactItems r vs

def compactMembers (r : Repertoire) : List (String × Json) → List Char
  | [] => ['\x7d']
  | [(k, v)] => string r k ++ ':' :: ' ' :: compact r v ++ ['\x7d']
  | (k, v) :: ms => string r k ++ ':' :: ' ' :: compact r v ++ ',' :: ' ' :: compactMembers r ms

end

/-- A line end and the indentation of a nesting level: two blanks a level. -/
def newline (level : Nat) : List Char :=
  '\n' :: List.replicate (2 * level) ' '

mutual

/-- The text of a value at a nesting level, one item a line, empty containers without a line
end. -/
def prettyAt (r : Repertoire) (level : Nat) : Json → List Char
  | .arr [] => ['[', ']']
  | .arr (v :: vs) =>
    '[' :: newline (level + 1) ++ prettyAt r (level + 1) v ++ prettyItems r level vs
  | .obj [] => ['\x7b', '\x7d']
  | .obj ((k, v) :: ms) =>
    '\x7b' :: newline (level + 1) ++ string r k ++ ':' :: ' ' :: prettyAt r (level + 1) v ++
      prettyMembers r level ms
  | v => scalar r v

/-- What follows the first item of an array. -/
def prettyItems (r : Repertoire) (level : Nat) : List Json → List Char
  | [] => newline level ++ [']']
  | v :: vs => ',' :: newline (level + 1) ++ prettyAt r (level + 1) v ++ prettyItems r level vs

def prettyMembers (r : Repertoire) (level : Nat) : List (String × Json) → List Char
  | [] => newline level ++ ['\x7d']
  | (k, v) :: ms =>
    ',' :: newline (level + 1) ++ string r k ++ ':' :: ' ' :: prettyAt r (level + 1) v ++
      prettyMembers r level ms

end

def toCompact (r : Repertoire) (v : Json) : String :=
  String.ofList (compact r v)

def toPretty (r : Repertoire) (v : Json) : String :=
  String.ofList (prettyAt r 0 v)

end Provision.Json
