import Provision.Json.Reader
import Provision.Step.Kind
import Provision.Text.Case
import Provision.Text.Utf8
import Provision.Web.Options
import Provision.Web.Target

/-! # Requests and their bodies

A body counts as JSON by its media type. Its bytes may be in any of the Unicode encodings, which
the first bytes tell apart. -/

namespace Provision.Web

structure Request where
  method : String
  /-- The address as it was given. -/
  target : String
  contentType : String := ""
  body : ByteArray := .empty

structure Response where
  status : Nat
  body : Option Json := none

/-- Why a request cannot be sent. -/
inductive RequestFault where
  | address (fault : AddressFault)
  /-- A content type of more than one line. -/
  | brokenHeader
  deriving DecidableEq, Repr

def RequestFault.message : RequestFault → String
  | address f => f.message
  | brokenHeader => "Header values must not contain newline characters."

/-- The target of a request that can be sent. -/
def Request.target? (r : Request) : Except RequestFault Target :=
  match Target.ofString r.target with
  | .error f => .error (.address f)
  | .ok t =>
    if r.contentType.toList.any fun c => c = '\r' || c = '\n' then .error .brokenHeader else .ok t

/-- The media type without its parameters, in small letters. -/
def mediaType (contentType : String) : String :=
  Text.lower (String.ofList (unpadded (contentType.toList.takeWhile (· ≠ ';'))))

def isJsonType (mediaType : String) : Bool :=
  mediaType = "application/json" ||
    (mediaType.startsWith "application/" && mediaType.endsWith "+json")

inductive Encoding where
  | utf8
  | utf16 (bigEndian : Bool)
  | utf32 (bigEndian : Bool)
  deriving DecidableEq, Repr

/-- The marks that may stand in front of a text. -/
def marks : List (List UInt8 × Encoding) :=
  [([0x00, 0x00, 0xFE, 0xFF], .utf32 true), ([0xFF, 0xFE, 0x00, 0x00], .utf32 false),
    ([0xFE, 0xFF], .utf16 true), ([0xFF, 0xFE], .utf16 false), ([0xEF, 0xBB, 0xBF], .utf8)]

/-- The encoding of a text without a mark: its first characters take one byte each in UTF-8. -/
def unmarked : List UInt8 → Encoding
  | a :: b :: c :: d :: _ =>
    if a = 0 then (if b = 0 then .utf32 true else .utf16 true)
    else if b = 0 then (if c = 0 && d = 0 then .utf32 false else .utf16 false)
    else .utf8
  | [a, b] => if a = 0 then .utf16 true else if b = 0 then .utf16 false else .utf8
  | _ => .utf8

/-- The encoding of a body and how many bytes of a mark stand in front. -/
def detect (bytes : List UInt8) : Encoding × Nat :=
  match marks.find? (·.1.isPrefixOf bytes) with
  | some (mark, encoding) => (encoding, mark.length)
  | none => (unmarked bytes, 0)

def units (bigEndian : Bool) : List UInt8 → Option (List Nat)
  | a :: b :: rest =>
    let u := if bigEndian then a.toNat * 256 + b.toNat else b.toNat * 256 + a.toNat
    (units bigEndian rest).map (u :: ·)
  | [] => some []
  | [_] => none

def isHigh (u : Nat) : Bool :=
  0xD800 ≤ u && u < 0xDC00

def isLow (u : Nat) : Bool :=
  0xDC00 ≤ u && u < 0xE000

/-- Halves of a pair that stand alone are replaced. -/
def charsOfUnits : List Nat → List Char
  | [] => []
  | u :: v :: rest =>
    if isHigh u && isLow v then
      Char.ofNat (0x10000 + (u - 0xD800) * 0x400 + (v - 0xDC00)) :: charsOfUnits rest
    else single u :: charsOfUnits (v :: rest)
  | [u] => [single u]
where
  single (u : Nat) : Char := if isHigh u || isLow u then Utf8.replacement else Char.ofNat u

def codePoints (bigEndian : Bool) : List UInt8 → Option (List Char)
  | a :: b :: c :: d :: rest => do
    let ds := if bigEndian then [a, b, c, d] else [d, c, b, a]
    let n := ds.foldl (fun n x => n * 256 + x.toNat) 0
    let cs ← codePoints bigEndian rest
    if 0x110000 ≤ n then none
    else return (if isHigh n || isLow n then Utf8.replacement else Char.ofNat n) :: cs
  | [] => some []
  | _ => none

def bodyText? (body : ByteArray) : Option String :=
  let bytes := body.toList
  let (encoding, mark) := detect bytes
  match encoding with
  | .utf8 => String.fromUTF8? (body.extract mark body.size)
  | .utf16 big => (units big (bytes.drop mark)).map fun us => String.ofList (charsOfUnits us)
  | .utf32 big => (codePoints big (bytes.drop mark)).map String.ofList

/-- Bodies of more bytes are not read. -/
def bodyLimit : Nat := 32 * 1024 * 1024

def Request.isTooLarge (r : Request) : Bool :=
  bodyLimit < r.body.size

/-- What becomes of a body that should hold a JSON object. -/
inductive Payload where
  | object (members : Members)
  | invalid
  | tooLarge
  /-- Too deep a nesting is not noticed in time to be reported. -/
  | tooDeep

def payload (r : Request) (room : Room := .standard) : Payload :=
  if !isJsonType (mediaType r.contentType) then .invalid
  else if r.isTooLarge then .tooLarge
  else
    match bodyText? r.body with
    | none => .invalid
    | some text =>
      match Json.read (.within room.reading) text with
      | .ok (.obj ms) => .object ms
      | .ok _ => .invalid
      | .error .tooDeep => .tooDeep
      | .error _ => .invalid

end Provision.Web
