import Provision.Yaml.Basic
import Provision.Yaml.Cursor

/-! # Quoted scalars

Line breaks inside quotes are folded: one becomes a space, of several the first is dropped.
Backslashes have a meaning between double quotes only. -/

namespace Provision.Yaml.Quoted

def isBlank (c : Char) : Bool :=
  c = ' ' || c = '\t'

/-- Empty lines, up to the first character of a line that is not empty. -/
def emptyLines : Nat → Cursor → Except Fault (List Char × Cursor)
  | 0, _ => .error .malformed
  | fuel + 1, c =>
    if c.atDocumentMark then .error .malformed
    else
      let c := c.skipWhile isBlank
      match c.lineBreak with
      | ([], _) => .ok ([], c)
      | (b, c) => (emptyLines fuel c).map fun (bs, c) => (b ++ bs, c)

/-- The text that a line break and the empty lines behind it stand for. -/
def folded (lineBreak breaks : List Char) : List Char :=
  (if lineBreak ≠ ['\n'] then lineBreak else if breaks.isEmpty then [' '] else []) ++ breaks

/-- Blank space: kept inside a line, dropped around a line break. -/
def space (fuel : Nat) (c : Cursor) : Except Fault (List Char × Cursor) :=
  let (run, c) := c.span isBlank
  match c.lineBreak with
  | ([], _) => .ok (run, c)
  | (b, c) => (emptyLines fuel c).map fun (bs, c) => (folded b bs, c)

/-- Letters that stand for one character behind a backslash. -/
def escapes : List (Char × Char) :=
  [('0', '\x00'), ('a', '\x07'), ('b', '\x08'), ('t', '\t'), ('\t', '\t'), ('n', '\n'),
    ('v', '\x0b'), ('f', '\x0c'), ('r', '\r'), ('e', '\x1b'), (' ', ' '), ('\x22', '\x22'),
    ('\\', '\\'), ('/', '/'), ('N', '\u0085'), ('_', '\u00a0'), ('L', '\u2028'), ('P', '\u2029')]

/-- Letters that announce so many hexadecimal digits. -/
def codeLengths : List (Char × Nat) :=
  [('x', 2), ('u', 4), ('U', 8)]

def hexValue (c : Char) : Nat :=
  if c.isDigit then c.toNat - 48 else c.toLower.toNat - 87

def isHexDigit (c : Char) : Bool :=
  c.isDigit || ('a' ≤ c.toLower && c.toLower ≤ 'f')

def hexNumber (cs : List Char) : Nat :=
  cs.foldl (fun n c => n * 16 + hexValue c) 0

/-- The character of a number; halves of a pair are replaced. -/
def codePoint (n : Nat) : Except Fault Char :=
  if 0x110000 ≤ n then .error (.noCodePoint n)
  else if 0xD800 ≤ n && n < 0xE000 then .ok '\uFFFD'
  else .ok (Char.ofNat n)

/-- What a backslash and the characters behind it stand for; the cursor is behind the backslash. -/
def escape (fuel : Nat) (c : Cursor) : Except Fault (List Char × Cursor) :=
  match escapes.lookup c.peek, codeLengths.lookup c.peek with
  | some ch, _ => .ok ([ch], c.next)
  | none, some n => do
    let digits := c.next.rest.take n
    if digits.length = n && digits.all isHexDigit then
      return ([← codePoint (hexNumber digits)], c.next.skip n)
    else .error .malformed
  | none, none =>
    match c.lineBreak with
    | ([], _) => .error .malformed
    | (_, c) => emptyLines fuel c

/-- The text up to the closing quote, and the place behind it. -/
def body (double : Bool) : Nat → Cursor → List Char → Except Fault (List Char × Cursor)
  | 0, _, _ => .error .malformed
  | fuel + 1, c, done => do
    let ch := c.peek
    if c.rest.isEmpty then .error .malformed
    else if double && ch = '\x22' then return (done, c.next)
    else if !double && ch = '\x27' then
      if c.peek 1 = '\x27' then body double fuel (c.skip 2) (done ++ ['\x27'])
      else return (done, c.next)
    else if double && ch = '\\' then
      let (text, c) ← escape fuel c.next
      body double fuel c (done ++ text)
    else if isBlank ch || isBreak ch then
      let (text, c) ← space fuel c
      body double fuel c (done ++ text)
    else body double fuel c.next (done ++ [ch])

/-- The scalar whose opening quote is at the cursor. -/
def read (c : Cursor) : Except Fault (List Char × Cursor) :=
  body (c.peek = '\x22') (c.rest.length + 1) c.next []

end Provision.Yaml.Quoted
