import Provision.Decimal.Text
import Provision.Json.Basic
import Provision.Yaml.Block
import Provision.Yaml.Plain
import Provision.Yaml.Quoted

/-! # YAML tokens

`Tokens.ofText` cuts a text into tokens. Indentation opens and closes blocks. What stands before a
colon turns out to be a key only when the colon is seen, so a place is kept free before everything
that may be a key, and filled when it is one. -/

namespace Provision.Yaml

/-- A tag as written: a handle, where there is one, and a suffix. -/
structure TagName where
  handle : Option String
  suffix : String
  deriving DecidableEq, Repr

inductive Token where
  | version (major : Nat)
  | tagDirective (handle base : String)
  | otherDirective
  | documentStart
  | documentEnd
  | blockSequence
  | blockMapping
  | blockEnd
  | openSequence
  | closeSequence
  | openMapping
  | closeMapping
  | entry
  | separator
  | key
  | value
  | alias (name : String)
  | anchor (name : String)
  | tag (t : TagName)
  | scalar (plain : Bool) (text : String)
  deriving DecidableEq, Repr

/-- The name of an anchor or alias behind its indicator. -/
def anchorName (c : Cursor) : Except Fault (String × Cursor) :=
  let (name, c) := c.span isWordChar
  let ends := isBlankOrEnd c.peek ||
    ['?', ':', ',', ']', '\x7d', '%', '@', '\x60'].contains c.peek
  if name.isEmpty || !ends then .error .malformed else .ok (String.ofList name, c)

def uriMarks : List Char :=
  "-;/?:@&=+$,_.!~*'()[]".toList

def isUriChar (c : Char) : Bool :=
  c.isAlphanum || uriMarks.contains c

/-- The bytes of a run of numbered characters, each a percent sign and two digits. -/
def uriBytes : List Char → Except Fault (List UInt8 × Nat)
  | '%' :: a :: b :: rest =>
    if Quoted.isHexDigit a && Quoted.isHexDigit b then
      (uriBytes rest).map fun (bs, n) => ((Quoted.hexNumber [a, b]).toUInt8 :: bs, n + 3)
    else .error .malformed
  | '%' :: _ => .error .malformed
  | _ => .ok ([], 0)

def uriRun : Nat → Cursor → Except Fault (List Char × Cursor)
  | 0, c => .ok ([], c)
  | fuel + 1, c =>
    if c.peek = '%' then do
      let (encoded, n) ← uriBytes c.rest
      match String.fromUTF8? ⟨encoded.toArray⟩ with
      | none => .error .malformed
      | some text =>
        let (more, c) ← uriRun fuel (c.skip n)
        return (text.toList ++ more, c)
    else
      match c.span isUriChar with
      | ([], _) => .ok ([], c)
      | (run, c) => (uriRun fuel c).map fun (more, c) => (run ++ more, c)

def uri (c : Cursor) : Except Fault (String × Cursor) := do
  match ← uriRun (c.rest.length + 1) c with
  | ([], _) => .error .malformed
  | (text, c) => return (String.ofList text, c)

/-- A handle: an exclamation mark, or a name between two. -/
def tagHandle (c : Cursor) : Except Fault (String × Cursor) :=
  if c.peek ≠ '!' then .error .malformed
  else
    let (name, d) := c.next.span isWordChar
    if d.peek = '!' then .ok ("!" ++ String.ofList name ++ "!", d.next)
    else if name.isEmpty && c.peek 1 = ' ' then .ok ("!", c.next)
    else .error .malformed

/-- The tag at the cursor. -/
def tagAt (c : Cursor) : Except Fault (TagName × Cursor) := do
  let (t, d) ←
    if c.peek 1 = '<' then
      let (suffix, d) ← uri (c.skip 2)
      if d.peek = '>' then .ok (⟨none, suffix⟩, d.next) else .error .malformed
    else if isBlankOrEnd (c.peek 1) then .ok (⟨none, "!"⟩, c.next)
    else
      let (word, _) := c.next.span (!isSpaceOrEnd ·)
      let (handle, d) ← if word.contains '!' then tagHandle c else .ok ("!", c.next)
      let (suffix, d) ← uri d
      .ok (⟨some handle, suffix⟩, d)
  if isSpaceOrEnd d.peek then return (t, d) else .error .malformed

def decimal (c : Cursor) : Except Fault (Nat × Cursor) :=
  match c.span Char.isDigit with
  | ([], _) => .error .malformed
  | (ds, c) =>
    if Json.digitLimit < ds.length then .error .tooManyDigits else .ok (Decimal.digitsValue ds, c)

def versionDirective (c : Cursor) : Except Fault (Token × Cursor) := do
  let (major, c) ← decimal c.skipSpaces
  if c.peek ≠ '.' then .error .malformed
  else
    let (_, c) ← decimal c.next
    if isSpaceOrEnd c.peek then return (.version major, c) else .error .malformed

def tagDirective (c : Cursor) : Except Fault (Token × Cursor) := do
  let (handle, c) ← tagHandle c.skipSpaces
  if c.peek ≠ ' ' then .error .malformed
  else
    let (base, c) ← uri c.skipSpaces
    if isSpaceOrEnd c.peek then return (.tagDirective handle base, c) else .error .malformed

/-- The directive at the cursor and the rest of its line. -/
def directive (c : Cursor) : Except Fault (Token × Cursor) := do
  let (name, c) := c.next.span isWordChar
  if name.isEmpty || !isSpaceOrEnd c.peek then .error .malformed
  else
    let (t, c) ←
      if name = "YAML".toList then versionDirective c
      else if name = "TAG".toList then tagDirective c
      else .ok (.otherDirective, c.skipLine)
    let c := c.skipSpaces.skipComment
    if isBreakOrEnd c.peek then return (t, c.lineBreak.2) else .error .malformed

/-- Something that a colon would make a key. -/
structure Candidate where
  level : Nat
  slot : Nat
  required : Bool
  index : Nat
  line : Nat
  column : Nat

structure Scanner where
  cursor : Cursor
  /-- Tokens so far; a slot that is kept free holds none. -/
  slots : Array (List Token) := #[]
  indent : Int := -1
  outer : List Int := []
  level : Nat := 0
  keyAllowed : Bool := true
  candidates : List Candidate := []

namespace Scanner

def push (s : Scanner) (t : Token) : Scanner :=
  { s with slots := s.slots.push [t] }

def inFlow (s : Scanner) : Bool :=
  s.level ≠ 0

/-- Closes the blocks that are further in than a column. -/
def closeBlocks (column : Int) : List Int → Scanner → Scanner
  | [], s => s
  | i :: outer, s =>
    if column < s.indent then closeBlocks column outer { s.push .blockEnd with indent := i, outer }
    else s

def unwind (s : Scanner) (column : Int) : Scanner :=
  if s.inFlow then s else closeBlocks column s.outer s

/-- Enters a block where a column is further in, with its token in the given slot. -/
def enter (s : Scanner) (column : Int) : Scanner × Bool :=
  if s.indent < column then
    ({ s with outer := s.indent :: s.outer, indent := column }, true)
  else (s, false)

/-- Enters a block at the cursor, which only a place where keys are allowed can begin. -/
def enterHere (s : Scanner) (t : Token) : Except Fault Scanner :=
  if s.inFlow then .ok s
  else if !s.keyAllowed then .error .malformed
  else
    match s.enter s.cursor.column with
    | (s, true) => .ok (s.push t)
    | (s, false) => .ok s

/-- Drops the candidate of the present level. One that has to be a key is missing its colon. -/
def dropCandidate (s : Scanner) : Except Fault Scanner :=
  if s.candidates.any fun k => k.level = s.level && k.required then .error .malformed
  else .ok { s with candidates := s.candidates.filter (·.level ≠ s.level) }

/-- Keys are at most this long. -/
def longestKey : Nat := 1024

def isStale (c : Cursor) (k : Candidate) : Bool :=
  k.line ≠ c.line || longestKey < c.index - k.index

/-- Drops the candidates that stand on a line before or too far back. -/
def dropStale (s : Scanner) : Except Fault Scanner :=
  if s.candidates.any fun k => isStale s.cursor k && k.required then .error .malformed
  else .ok { s with candidates := s.candidates.filter (!isStale s.cursor ·) }

/-- Notes that what begins at the cursor may be a key. -/
def saveCandidate (s : Scanner) : Except Fault Scanner :=
  if s.keyAllowed then do
    let s ← s.dropCandidate
    let k : Candidate :=
      { level := s.level, slot := s.slots.size,
        required := !s.inFlow && s.indent = s.cursor.column, index := s.cursor.index,
        line := s.cursor.line, column := s.cursor.column }
    return { s with slots := s.slots.push [], candidates := k :: s.candidates }
  else .ok s

def toNextToken : Nat → Scanner → Scanner
  | 0, s => s
  | fuel + 1, s =>
    let c := s.cursor.skipSpaces.skipComment
    match c.lineBreak with
    | ([], _) => { s with cursor := c }
    | (_, c) => toNextToken fuel { s with cursor := c, keyAllowed := s.keyAllowed || !s.inFlow }

/-! ### Fetching a token -/

/-- Ends whatever is open at the beginning of a line. -/
def endBlocks (s : Scanner) : Except Fault Scanner := do
  let s ← (s.unwind (-1)).dropCandidate
  return { s with keyAllowed := false }

def fetchEnd (s : Scanner) : Except Fault Scanner :=
  s.endBlocks

def fetchDirective (s : Scanner) : Except Fault Scanner := do
  let s ← s.endBlocks
  let (t, c) ← directive s.cursor
  return { s.push t with cursor := c }

def fetchDocumentMark (t : Token) (s : Scanner) : Except Fault Scanner := do
  let s ← s.endBlocks
  return { s.push t with cursor := s.cursor.skip 3 }

def fetchOpen (t : Token) (s : Scanner) : Except Fault Scanner := do
  let s ← s.saveCandidate
  return { s.push t with level := s.level + 1, keyAllowed := true, cursor := s.cursor.next }

def fetchClose (t : Token) (s : Scanner) : Except Fault Scanner := do
  if s.inFlow then
    let s ← s.dropCandidate
    return { s.push t with level := s.level - 1, keyAllowed := false, cursor := s.cursor.next }
  else .error .malformed

def fetchSeparator (s : Scanner) : Except Fault Scanner := do
  let s ← s.dropCandidate
  return { s.push .separator with keyAllowed := true, cursor := s.cursor.next }

def fetchEntry (s : Scanner) : Except Fault Scanner := do
  let s ← s.enterHere .blockSequence
  let s ← s.dropCandidate
  return { s.push .entry with keyAllowed := true, cursor := s.cursor.next }

def fetchKey (s : Scanner) : Except Fault Scanner := do
  let s ← s.enterHere .blockMapping
  let s ← s.dropCandidate
  return { s.push .key with keyAllowed := !s.inFlow, cursor := s.cursor.next }

/-- Fills the slot before a key. -/
def fillKey (s : Scanner) (k : Candidate) : Scanner :=
  let s := { s with candidates := s.candidates.filter (·.level ≠ s.level), keyAllowed := false }
  let (s, entered) := if s.inFlow then (s, false) else s.enter k.column
  let tokens : List Token := if entered then [.blockMapping, .key] else [.key]
  { s with slots := s.slots.setIfInBounds k.slot tokens }

def fetchValue (s : Scanner) : Except Fault Scanner := do
  let s ←
    match s.candidates.find? (·.level = s.level) with
    | some k => .ok (s.fillKey k)
    | none => do
      let s ← s.enterHere .blockMapping
      let s ← s.dropCandidate
      .ok { s with keyAllowed := !s.inFlow }
  return { s.push .value with cursor := s.cursor.next }

def fetchAnchor (t : String → Token) (s : Scanner) : Except Fault Scanner := do
  let s ← s.saveCandidate
  let (name, c) ← anchorName s.cursor.next
  return { s.push (t name) with keyAllowed := false, cursor := c }

def fetchTag (s : Scanner) : Except Fault Scanner := do
  let s ← s.saveCandidate
  let (t, c) ← tagAt s.cursor
  return { s.push (.tag t) with keyAllowed := false, cursor := c }

def fetchBlock (s : Scanner) : Except Fault Scanner := do
  let s ← s.dropCandidate
  let (text, c) ← Block.read s.indent s.cursor
  return { s.push (.scalar false (String.ofList text)) with keyAllowed := true, cursor := c }

def fetchQuoted (s : Scanner) : Except Fault Scanner := do
  let s ← s.saveCandidate
  let (text, c) ← Quoted.read s.cursor
  return { s.push (.scalar false (String.ofList text)) with keyAllowed := false, cursor := c }

def fetchPlain (s : Scanner) : Except Fault Scanner := do
  let s ← s.saveCandidate
  let (text, hasBreak, c) := Plain.read s.inFlow s.indent s.cursor
  return { s.push (.scalar true (String.ofList text)) with keyAllowed := hasBreak, cursor := c }

/-- Marks that no plain scalar begins with. -/
def indicators : List Char :=
  "-?:,[]\x7b\x7d#&*!|>'\"%@\x60".toList

def startsPlain (s : Scanner) : Bool :=
  let c := s.cursor.peek
  if isBlankOrEnd c then false
  else !indicators.contains c ||
    (!isBlankOrEnd (s.cursor.peek 1) && (c = '-' || (!s.inFlow && (c = '?' || c = ':'))))

/-- Fetches the token at the cursor, which stands at no blank space. -/
def fetch (s : Scanner) : Except Fault Scanner :=
  let c := s.cursor
  let alone := isBlankOrEnd (c.peek 1)
  match c.peek with
  | '[' => s.fetchOpen .openSequence
  | '\x7b' => s.fetchOpen .openMapping
  | ']' => s.fetchClose .closeSequence
  | '\x7d' => s.fetchClose .closeMapping
  | ',' => s.fetchSeparator
  | '*' => s.fetchAnchor .alias
  | '&' => s.fetchAnchor .anchor
  | '!' => s.fetchTag
  | '\x27' | '\x22' => s.fetchQuoted
  | ch =>
    if ch = '%' && c.column = 0 then s.fetchDirective
    else if c.column = 0 && c.atMark '-' then s.fetchDocumentMark .documentStart
    else if c.column = 0 && c.atMark '.' then s.fetchDocumentMark .documentEnd
    else if ch = '-' && alone then s.fetchEntry
    else if ch = '?' && (s.inFlow || alone) then s.fetchKey
    else if ch = ':' && (s.inFlow || alone) then s.fetchValue
    else if (ch = '|' || ch = '>') && !s.inFlow then s.fetchBlock
    else if s.startsPlain then s.fetchPlain
    else .error .malformed

/-- Fetches what comes next, and tells whether there was anything. -/
def step (s : Scanner) : Except Fault (Scanner × Bool) := do
  let s ← (toNextToken (s.cursor.rest.length + 1) s).dropStale
  let s := s.unwind s.cursor.column
  if s.cursor.rest.isEmpty then return (← s.fetchEnd, false)
  else return (← (← s.fetch).dropStale, true)

/-- The slots before everything that may still turn out to be a key. -/
def settled (s : Scanner) : Nat :=
  (s.candidates.map (·.slot)).foldl min s.slots.size

def tokens (s : Scanner) (slots : Nat) : List Token :=
  (s.slots.toList.take slots).flatten

end Scanner

/-- The tokens of a text, up to where it cannot be read any further. -/
structure Tokens where
  ready : List Token
  fault : Option Fault := none

namespace Scanner

def run : Nat → Scanner → Tokens
  | 0, s => ⟨s.tokens s.settled, some .malformed⟩
  | fuel + 1, s =>
    match s.step with
    | .error f => ⟨s.tokens s.settled, some f⟩
    | .ok (s, true) => run fuel s
    | .ok (s, false) => ⟨s.tokens s.slots.size, none⟩

end Scanner

/-- Characters that may stand in a text. -/
def isAllowed (c : Char) : Bool :=
  c = '\t' || c = '\n' || c = '\r' || (' ' ≤ c && c ≤ '~') || c = '\u0085' ||
    ('\u00a0' ≤ c && c ≤ '\uFFFD') || 0x10000 ≤ c.toNat

def skipMark : List Char → List Char
  | c :: cs => if c = byteOrderMark then cs else c :: cs
  | [] => []

/-- A text with a character that may not stand in it has no tokens at all. -/
def Tokens.ofText (text : String) : Tokens :=
  let cs := text.toList
  if cs.all isAllowed then Scanner.run (cs.length + 1) { cursor := { rest := skipMark cs } }
  else ⟨[], some .malformed⟩

end Provision.Yaml
