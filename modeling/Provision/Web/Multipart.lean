import Provision.Text.Case
import Provision.Text.Utf8
import Provision.Web.Options

/-! # Multipart bodies

A multipart body is cut at the lines that hold the boundary. Every part has header lines, an empty
line and its content. A body that does not end with the last boundary holds no parts at all. -/

namespace Provision.Web.Multipart

abbrev Bytes := List UInt8

def lineFeed : UInt8 := 10

def carriageReturn : UInt8 := 13

def dashes : Bytes := [45, 45]

/-- What follows a line break, where there is one. -/
def afterBreak? : Bytes → Option Bytes
  | 13 :: 10 :: rest => some rest
  | 13 :: rest => some rest
  | 10 :: rest => some rest
  | _ => none

/-- Blank space inside a line. -/
def isBlank (b : UInt8) : Bool :=
  b = 32 || b = 9 || b = 11 || b = 12

/-- What follows a text, where the bytes begin with it. -/
def after? (text bytes : Bytes) : Option Bytes :=
  if text.isPrefixOf bytes then some (bytes.drop text.length) else none

/-- A boundary that has been found: whether it is the last, and what follows it. -/
structure Cut where
  isLast : Bool
  rest : Bytes

/-- The end of a boundary line behind the boundary itself. -/
def lineEnd? (bytes : Bytes) : Option Cut :=
  match after? dashes bytes with
  | some rest => some ⟨true, rest⟩
  | none => (afterBreak? (bytes.dropWhile isBlank)).map fun rest => ⟨false, rest⟩

def boundary? (boundary bytes : Bytes) : Option Cut :=
  (after? (dashes ++ boundary) bytes).bind lineEnd?

/-- A boundary behind a line break; the first one may stand without. -/
def cut? (boundary : Bytes) (isFirst : Bool) (bytes : Bytes) : Option Cut :=
  match (afterBreak? bytes).bind (boundary? boundary) with
  | some c => some c
  | none => if isFirst then boundary? boundary bytes else none

/-- The bytes before the first boundary, and the boundary. -/
def split? (boundary : Bytes) (isFirst : Bool) : Bytes → Option (Bytes × Cut)
  | [] => (cut? boundary isFirst []).map ([], ·)
  | b :: rest =>
    match cut? boundary isFirst (b :: rest) with
    | some c => some ([], c)
    | none => (split? boundary isFirst rest).map fun (before, c) => (b :: before, c)

/-- The header lines, and the content with the line break in front of it. -/
def headers? : Bytes → Option (Bytes × Bytes)
  | 13 :: 10 :: 13 :: 10 :: rest => some ([], 13 :: 10 :: rest)
  | 13 :: 13 :: rest => some ([], 13 :: rest)
  | 10 :: 10 :: rest => some ([], 10 :: rest)
  | b :: rest => (headers? rest).map fun (head, content) => (b :: head, content)
  | [] => none

/-- Joins a line that begins with blank space to the one before. -/
def joinLines : Bytes → Bytes
  | 13 :: 10 :: b :: rest =>
    if b = 32 || b = 9 then 32 :: joinLines rest else 13 :: 10 :: joinLines (b :: rest)
  | 13 :: b :: rest =>
    if b = 32 || b = 9 then 32 :: joinLines rest else 13 :: joinLines (b :: rest)
  | 10 :: b :: rest =>
    if b = 32 || b = 9 then 32 :: joinLines rest else 10 :: joinLines (b :: rest)
  | b :: rest => b :: joinLines rest
  | [] => []
termination_by bs => bs.length

def lines : Bytes → List Bytes
  | [] => [[]]
  | 13 :: 10 :: rest => [] :: lines rest
  | b :: rest =>
    if b = 13 || b = 10 then [] :: lines rest
    else match lines rest with
      | [] => [[b]]
      | l :: ls => (b :: l) :: ls

def textOf? (bytes : Bytes) : Option String :=
  String.fromUTF8? ⟨bytes.toArray⟩

/-- A line as a name in small letters and a value. -/
def headerOf (line : List Char) : String × String :=
  (Text.lower (String.ofList (unpadded (line.takeWhile (· ≠ ':')))),
    String.ofList (unpadded ((line.dropWhile (· ≠ ':')).drop 1)))

def headersOf? (head : Bytes) : Option (List (String × String)) :=
  ((lines (joinLines head)).mapM textOf?).map fun ls =>
    ((ls.map fun l => unpadded l.toList).filter (!·.isEmpty)).map headerOf

/-- What the header lines of a part say about it; one without a file name is no file. -/
structure Label where
  name : String
  filename : Option String

structure Part where
  label : Label
  content : Bytes

/-- What stops the reading of parts. -/
inductive Fault where
  /-- Parts that are not cut or labelled as they should be. -/
  | broken
  | tooLarge

/-- Bodies with more parts are not read. -/
def partLimit : Nat := 1000

/-- Parts that are no files may not have more bytes. -/
def fieldLimit : Nat := 500000

/-- Content without the line break in front of it. -/
def withoutBreak (content : Bytes) : Bytes :=
  (afterBreak? content).getD content

def labelOf? (head : Bytes) : Option Label := do
  let headers ← headersOf? head
  let disposition ← headers.lookup "content-disposition"
  return ⟨(option? disposition "name").getD "", option? disposition "filename"⟩

/-- The label at the front, and the content and all that follows it. -/
def label? (bytes : Bytes) : Option (Label × Bytes) := do
  let (head, rest) ← headers? bytes
  return (← labelOf? head, rest)

/-- The part behind a label, and the boundary it ends at. -/
def partAt (boundary : Bytes) (label : Label) (bytes : Bytes) : Except Fault (Part × Cut) :=
  let found := split? boundary false bytes
  let content := withoutBreak ((found.map (·.1)).getD bytes)
  if label.filename.isNone && fieldLimit < content.length then .error .tooLarge
  else match found with
    | none => .error .broken
    | some (_, cut) => .ok (⟨label, content⟩, cut)

/-- The parts behind a boundary that is not the last, where there is room for so many. -/
def partsFrom (boundary : Bytes) : Nat → Bytes → Except Fault (List Part)
  | 0, bytes => .error (if (label? bytes).isSome then .tooLarge else .broken)
  | room + 1, bytes =>
    match label? bytes with
    | none => .error .broken
    | some (label, rest) => do
      let (part, cut) ← partAt boundary label rest
      if cut.isLast then return [part]
      else return part :: (← partsFrom boundary room cut.rest)

def parts (boundary body : Bytes) : Except Fault (List Part) :=
  match split? boundary true body with
  | none => .error .broken
  | some (_, cut) => if cut.isLast then .ok [] else partsFrom boundary partLimit cut.rest

/-- The boundary that a content type names; only plain characters can bound. -/
def boundaryOf? (contentType : String) : Option Bytes :=
  (option? contentType "boundary").bind fun b =>
    if b = "" || !b.toList.all (· < '\x80') then none else some b.toUTF8.toList

/-- The name and the content of a part that is a file in the fields of a name. -/
def Part.file? (field : String) (p : Part) : Option (String × Bytes) :=
  if p.label.name = field then p.label.filename.map (·, p.content) else none

/-- The files in the fields of a name. There are none where the body has no parts, or they are
broken. Nothing is told about a body that is too large. -/
def files? (contentType field : String) (body : Bytes) : Option (List (String × Bytes)) :=
  match boundaryOf? contentType with
  | none => some []
  | some boundary =>
    match parts boundary body with
    | .ok ps => some (ps.filterMap (Part.file? field))
    | .error .broken => some []
    | .error .tooLarge => none

end Provision.Web.Multipart
