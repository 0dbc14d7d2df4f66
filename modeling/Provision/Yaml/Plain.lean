import Provision.Yaml.Cursor
import Provision.Yaml.Quoted

/-! # Plain scalars

A plain scalar ends before a mark that has a meaning where it stands, before a comment, and in a
block at a line that is not further in than the block. -/

namespace Provision.Yaml.Plain

def flowMarks : List Char := [',', '?', '[', ']', '\x7b', '\x7d']

def flowEnds : List Char := [',', '[', ']', '\x7b', '\x7d']

/-- Whether a character, followed by another, ends a run. -/
def endsRun (inFlow : Bool) (c after : Char) : Bool :=
  isBlankOrEnd c || (c = ':' && (isBlankOrEnd after || (inFlow && flowEnds.contains after))) ||
    (inFlow && flowMarks.contains c)

def run (inFlow : Bool) : List Char → List Char
  | [] => []
  | c :: cs => if endsRun inFlow c (cs.headD endMark) then [] else c :: run inFlow cs

/-- What stands between two runs. -/
structure Gap where
  /-- Absent before the end of a document. -/
  text : Option (List Char)
  hasBreak : Bool
  after : Cursor

/-- Line breaks and spaces; nothing where a document ends. -/
def breaks : Nat → Cursor → Option (List Char) × Cursor
  | 0, c => (none, c)
  | fuel + 1, c =>
    if c.peek = ' ' then breaks fuel c.next
    else
      match c.lineBreak with
      | ([], _) => (some [], c)
      | (b, c) =>
        if c.atDocumentMark then (none, c)
        else
          let (bs, c) := breaks fuel c
          (bs.map (b ++ ·), c)

def gap (fuel : Nat) (c : Cursor) : Gap :=
  let (spaces, c) := c.span (· = ' ')
  match c.lineBreak with
  | ([], _) => ⟨some spaces, false, c⟩
  | (b, c) =>
    if c.atDocumentMark then ⟨none, true, c⟩
    else
      let (bs, c) := breaks fuel c
      ⟨bs.map (Quoted.folded b), true, c⟩

/-- Runs with the gaps between them. Answers the text, whether it is followed by a line break, and
the place behind it. -/
def body (inFlow : Bool) (indent : Int) :
    Nat → Cursor → List Char → List Char → Bool → List Char × Bool × Cursor
  | 0, c, done, _, hasBreak => (done, hasBreak, c)
  | fuel + 1, c, done, before, hasBreak =>
    let word := if c.peek = '#' then [] else run inFlow c.rest
    if word.isEmpty then (done, hasBreak, c)
    else
      let done := done ++ before ++ word
      let g := gap fuel (c.skip word.length)
      match g.text with
      | none | some [] => (done, g.hasBreak, g.after)
      | some text =>
        if g.after.peek = '#' || (!inFlow && (g.after.column : Int) < indent) then
          (done, g.hasBreak, g.after)
        else body inFlow indent fuel g.after done text g.hasBreak

/-- The scalar at the cursor, in a block with the given indentation. -/
def read (inFlow : Bool) (indent : Int) (c : Cursor) : List Char × Bool × Cursor :=
  body inFlow (indent + 1) (c.rest.length + 1) c [] [] false

end Provision.Yaml.Plain
