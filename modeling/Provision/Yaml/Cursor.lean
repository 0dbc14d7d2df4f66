/-! # A place in a text

A cursor knows what is left of a text and the line and column it stands at. -/

namespace Provision.Yaml

structure Cursor where
  rest : List Char
  line : Nat := 0
  column : Nat := 0
  index : Nat := 0

/-- Stands for the end of the text, in which it does not occur. -/
def endMark : Char := '\x00'

def byteOrderMark : Char := '\uFEFF'

def isBreak (c : Char) : Bool :=
  c = '\n' || c = '\r' || c = '\u0085' || c = '\u2028' || c = '\u2029'

def isBreakOrEnd (c : Char) : Bool :=
  isBreak c || c = endMark

def isSpaceOrEnd (c : Char) : Bool :=
  isBreakOrEnd c || c = ' '

def isBlankOrEnd (c : Char) : Bool :=
  isSpaceOrEnd c || c = '\t'

def isWordChar (c : Char) : Bool :=
  c.isAlphanum || c = '-' || c = '_'

namespace Cursor

def peek (c : Cursor) (k : Nat := 0) : Char :=
  c.rest.getD k endMark

def next (c : Cursor) : Cursor :=
  match c.rest with
  | [] => c
  | ch :: rest =>
    if isBreak ch && !(ch = '\r' && rest.head? = some '\n') then
      ⟨rest, c.line + 1, 0, c.index + 1⟩
    else if ch = byteOrderMark then ⟨rest, c.line, c.column, c.index + 1⟩
    else ⟨rest, c.line, c.column + 1, c.index + 1⟩

def skip (c : Cursor) : Nat → Cursor
  | 0 => c
  | n + 1 => c.next.skip n

/-- The longest run of characters that satisfy `p`, and the place behind it. -/
def span (c : Cursor) (p : Char → Bool) : List Char × Cursor :=
  let run := c.rest.takeWhile fun ch => p ch && ch != endMark
  (run, c.skip run.length)

def skipWhile (c : Cursor) (p : Char → Bool) : Cursor :=
  (c.span p).2

def skipSpaces (c : Cursor) : Cursor :=
  c.skipWhile (· = ' ')

/-- Up to the end of the line. -/
def skipLine (c : Cursor) : Cursor :=
  c.skipWhile (!isBreak ·)

def skipComment (c : Cursor) : Cursor :=
  if c.peek = '#' then c.skipLine else c

/-- A line break as it counts in values, nothing where there is none, and the place behind it. -/
def lineBreak (c : Cursor) : List Char × Cursor :=
  match c.rest with
  | '\r' :: '\n' :: _ => (['\n'], c.skip 2)
  | ch :: _ =>
    if ch = '\u2028' || ch = '\u2029' then ([ch], c.next)
    else if isBreak ch then (['\n'], c.next)
    else ([], c)
  | [] => ([], c)

/-- Whether the cursor stands at the mark, three characters long, followed by blank space. -/
def atMark (c : Cursor) (ch : Char) : Bool :=
  c.peek = ch && c.peek 1 = ch && c.peek 2 = ch && isBlankOrEnd (c.peek 3)

/-- Whether a document begins or ends at the cursor. -/
def atDocumentMark (c : Cursor) : Bool :=
  c.atMark '-' || c.atMark '.'

end Cursor

end Provision.Yaml
