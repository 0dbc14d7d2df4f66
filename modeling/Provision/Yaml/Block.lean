import Provision.Yaml.Basic
import Provision.Yaml.Cursor

/-! # Block scalars

A block scalar holds the lines that are further in than the block around it. A header says whether
lines are folded, what becomes of line breaks at the end, and how far in the lines are where their
own spaces do not tell. -/

namespace Provision.Yaml.Block

/-- What becomes of the line breaks at the end. -/
inductive Chomping where
  | strip
  | clip
  | keep
  deriving DecidableEq, Repr

structure Header where
  chomping : Chomping := .clip
  increment : Option Nat := none

def chompingOf? (c : Char) : Option Chomping :=
  if c = '+' then some .keep else if c = '-' then some .strip else none

def incrementOf? (c : Char) : Option Nat :=
  if c.isDigit then some (c.toNat - 48) else none

/-- The two indicators, in any order. -/
def indicators (c : Cursor) : Header × Cursor :=
  match chompingOf? c.peek, incrementOf? c.peek with
  | some ch, _ =>
    match incrementOf? c.next.peek with
    | some n => (⟨ch, some n⟩, c.skip 2)
    | none => (⟨ch, none⟩, c.next)
  | none, some n =>
    match chompingOf? c.next.peek with
    | some ch => (⟨ch, some n⟩, c.skip 2)
    | none => (⟨.clip, some n⟩, c.next)
  | none, none => ({}, c)

/-- The header and the line break behind it. -/
def header (c : Cursor) : Except Fault (Header × Cursor) :=
  let (h, c) := indicators c
  if h.increment = some 0 || !isSpaceOrEnd c.peek then .error .malformed
  else
    let c := c.skipSpaces.skipComment
    if isBreakOrEnd c.peek then .ok (h, c.lineBreak.2) else .error .malformed

/-- Leading lines of spaces: their breaks, the greatest column reached, and the place behind. -/
def leading : Nat → Cursor → Nat → List Char × Nat × Cursor
  | 0, c, most => ([], most, c)
  | fuel + 1, c, most =>
    if c.peek = ' ' then
      let c := c.next
      leading fuel c (max most c.column)
    else
      match c.lineBreak with
      | ([], _) => ([], most, c)
      | (b, c) =>
        let (bs, most, c) := leading fuel c most
        (b ++ bs, most, c)

def spacesTo (indent : Int) : Nat → Cursor → Cursor
  | 0, c => c
  | fuel + 1, c =>
    if (c.column : Int) < indent && c.peek = ' ' then spacesTo indent fuel c.next else c

/-- Empty lines, up to the indentation of the next line. -/
def emptyLines (indent : Int) : Nat → Cursor → List Char × Cursor
  | 0, c => ([], c)
  | fuel + 1, c =>
    let c := spacesTo indent c.rest.length c
    match c.lineBreak with
    | ([], _) => ([], c)
    | (b, c) =>
      let (bs, c) := emptyLines indent fuel c
      (b ++ bs, c)

def isBlank (c : Char) : Bool :=
  c = ' ' || c = '\t'

/-- What has been read: the text, the break of the last line and the empty lines behind it. -/
structure Lines where
  text : List Char
  lastBreak : List Char
  breaks : List Char
  after : Cursor

/-- The text between a line and the next one: in folded scalars a break between two lines that
begin with no blank is a space, and is dropped before empty lines. -/
def between (fold : Bool) (lastBreak breaks : List Char) (startsBlank nextBlank : Bool) :
    List Char :=
  if fold && lastBreak = ['\n'] && !startsBlank && !nextBlank then
    if breaks.isEmpty then [' '] else []
  else lastBreak

def lines (fold : Bool) (indent : Int) : Nat → Lines → Lines
  | 0, l => l
  | fuel + 1, l =>
    let c := l.after
    if (c.column : Int) = indent && !c.rest.isEmpty then
      let (line, d) := c.span (!isBreak ·)
      let (b, d) := d.lineBreak
      let (bs, d) := emptyLines indent fuel d
      let text := l.text ++ l.breaks ++ line
      if (d.column : Int) = indent && !d.rest.isEmpty then
        let text := text ++ between fold b bs (isBlank c.peek) (isBlank d.peek)
        lines fold indent fuel ⟨text, b, bs, d⟩
      else ⟨text, b, bs, d⟩
    else l

def finish (chomping : Chomping) (l : Lines) : List Char :=
  match chomping with
  | .strip => l.text
  | .clip => l.text ++ l.lastBreak
  | .keep => l.text ++ l.lastBreak ++ l.breaks

/-- The scalar whose indicator is at the cursor, in a block with the given indentation. -/
def read (parentIndent : Int) (c : Cursor) : Except Fault (List Char × Cursor) := do
  let fold := c.peek = '>'
  let (h, c) ← header c.next
  let least := max 1 (parentIndent + 1)
  let fuel := c.rest.length + 1
  let (indent, breaks, c) : Int × List Char × Cursor :=
    match h.increment with
    | none =>
      let (bs, most, c) := leading fuel c 0
      (max least most, bs, c)
    | some n =>
      let indent := least + n - 1
      let (bs, c) := emptyLines indent fuel c
      (indent, bs, c)
  let l := lines fold indent fuel ⟨[], [], breaks, c⟩
  return (finish h.chomping l, l.after)

end Provision.Yaml.Block
