import Provision.Decimal.Text
import Provision.Json.Basic
import Provision.Text.Blank
import Provision.Text.Case
import Provision.Text.Quoted

/-! # Hosts

Behind two slashes an address names a host, with a user in front of it and a port behind it. A host
is a row of labels between points, or a numeric one, which stands between brackets where it has
colons. `Authority.text` writes all three as they are sent, or says why they cannot be sent. -/

namespace Provision.Web

/-- Why an address cannot be sent to. -/
inductive AddressFault where
  /-- A bracket without its partner. -/
  | loneBracket
  /-- Brackets around what is no numeric host. -/
  | notNumeric (host : String)
  /-- Brackets around a numeric host that has points. -/
  | dotted
  /-- Brackets around a host of a later version that is not written as one. -/
  | badVersion
  /-- A character that stands for a separator. -/
  | disguised (authority : String)
  | badLabel
  | longLabel
  | badPort (port : String)
  | portOutOfRange
  /-- A port of more digits than are read. -/
  | tooManyDigits
  deriving DecidableEq, Repr

def AddressFault.message : AddressFault → String
  | loneBracket => "Invalid IPv6 URL"
  | notNumeric host => quoted host ++ " does not appear to be an IPv4 or IPv6 address"
  | dotted => "An IPv4 address cannot be in brackets"
  | badVersion => "IPvFuture address is invalid"
  | disguised a => "netloc '" ++ a ++ "' contains invalid characters under NFKC normalization"
  | badLabel => "label empty or too long"
  | longLabel => "label too long"
  | badPort port => "Port could not be cast to integer value as " ++ quoted port
  | portOutOfRange => "Port out of range 0-65535"
  | tooManyDigits => "Exceeds the limit (4300 digits) for integer string conversion"

namespace Host

/-- The text in front of a character, or all of it. -/
def upTo (c : Char) (cs : List Char) : List Char :=
  cs.takeWhile (· ≠ c)

/-- The text behind a character, where there is one. -/
def behind (c : Char) (cs : List Char) : List Char :=
  (cs.dropWhile (· ≠ c)).drop 1

/-- A number below 256 without zeros in front. -/
def isOctet (cs : List Char) : Bool :=
  !cs.isEmpty && cs.length ≤ 3 && cs.all Char.isDigit && (cs = ['0'] || cs.head? ≠ some '0') &&
    Decimal.digitsValue cs < 256

/-- Four octets with points between them. -/
def isDotted (cs : List Char) : Bool :=
  let octets := Text.pieces (· = '.') cs
  octets.length = 4 && octets.all isOctet

def isHexDigit (c : Char) : Bool :=
  c.isDigit || ('a' ≤ c.toLower && c.toLower ≤ 'f')

def isGroup (cs : List Char) : Bool :=
  !cs.isEmpty && cs.length ≤ 4 && cs.all isHexDigit

/-- The pieces between colons. A dotted one at the end counts for two groups. -/
def groups? (cs : List Char) : Option (List (List Char)) :=
  let pieces := Text.pieces (· = ':') cs
  let last := pieces.getLast?.getD []
  if pieces.length < 3 then none
  else if last.contains '.' then
    if isDotted last then some (pieces.dropLast ++ [['0'], ['0']]) else none
  else some pieces

/-- The groups on one side of a gap; where the text ends at the gap, there are none. -/
def side? (pieces : List (List Char)) : Option Nat :=
  if pieces = [[]] then some 0
  else if pieces.all isGroup then some pieces.length
  else none

/-- Eight groups, or fewer with one gap between two colons. -/
def areGroups : List (List Char) → Bool
  | [] => false
  | first :: rest =>
    let inner := rest.takeWhile (!·.isEmpty)
    match rest.drop inner.length with
    | _ :: next :: after =>
      match side? (first :: inner), side? (next :: after) with
      | some m, some n => m + n < 8
      | _, _ => false
    | _ => rest.length = 7 && (first :: rest).all isGroup

/-- A numeric host with colons. A percent sign may name a zone behind it. -/
def isColoned (cs : List Char) : Bool :=
  let zone := behind '%' cs
  (!cs.contains '%' || !(zone.isEmpty || zone.contains '%')) &&
    ((groups? (upTo '%' cs)).map areGroups).getD false

/-- What follows the letter of a later version: its number, a point and some text. -/
def isVersioned (cs : List Char) : Bool :=
  let number := cs.takeWhile isHexDigit
  match cs.drop number.length with
  | '.' :: rest => !number.isEmpty && !rest.isEmpty
  | _ => false

def checkBracketed (host : List Char) : Except AddressFault Unit :=
  match host with
  | 'v' :: version => if isVersioned version then .ok () else .error .badVersion
  | _ =>
    if isDotted host then .error .dotted
    else if isColoned host then .ok ()
    else .error (.notNumeric (String.ofList host))

/-- Characters that other writings have for the point between labels. -/
def isPoint (c : Char) : Bool :=
  c = '.' || c = '。' || c = '．' || c = '｡'

def isLabel (cs : List Char) : Bool :=
  !cs.isEmpty && cs.length < 64

/-- The last label may be empty. -/
def checkLabels (host : List Char) : Except AddressFault Unit :=
  let labels := Text.pieces isPoint host
  let last := labels.getLast?.getD []
  if !labels.dropLast.all isLabel then .error .badLabel
  else if last.length < 64 then .ok ()
  else .error (if host.all (· < '\x80') then .longLabel else .badLabel)

/-- Small letters, but for the zone of a numeric host. -/
def lowered (host : List Char) : List Char :=
  let name := upTo '%' host
  (Text.lower (String.ofList name)).toList ++ host.drop name.length

end Host

/-- What stands between two slashes and the path of an address. -/
structure Authority where
  user : List Char := []
  host : List Char := []
  port : List Char := []

namespace Authority

open Host

/-- Characters that stand for one of the separators when they are simplified. -/
def isDisguise (c : Char) : Bool :=
  "⁇⁈⁉℀℁℅℆⩴︓︖﹕﹖﹟﹫＃／：？＠".toList.contains c

/-- What can be told before the parts are looked at. -/
def check (cs : List Char) : Except AddressFault Unit := do
  if cs.contains '[' ≠ cs.contains ']' then throw .loneBracket
  if cs.contains '[' then checkBracketed (upTo ']' (behind '[' cs))
  if cs.any isDisguise then throw (.disguised (String.ofList cs))

/-- The user stands in front of the last at sign, the port behind a colon. Colons between brackets
belong to the host. -/
def ofChars (cs : List Char) : Authority :=
  let place := (cs.reverse.takeWhile (· ≠ '@')).reverse
  let user := cs.take (cs.length - place.length - 1)
  if place.contains '[' then
    let rest := behind '[' place
    ⟨user, upTo ']' rest, behind ':' (behind ']' rest)⟩
  else ⟨user, upTo ':' place, behind ':' place⟩

/-- The number of the port; zero where there is none. -/
def portNumber (a : Authority) : Except AddressFault Nat :=
  if a.port.isEmpty then .ok 0
  else if !a.port.all Char.isDigit then .error (.badPort (String.ofList a.port))
  else if Json.digitLimit < a.port.length then .error .tooManyDigits
  else
    let n := Decimal.digitsValue a.port
    if n < 65536 then .ok n else .error .portOutOfRange

/-- A user without a name is not sent. -/
def userText (a : Authority) : List Char :=
  if (upTo ':' a.user).isEmpty then [] else a.user ++ ['@']

def text (a : Authority) : Except AddressFault (List Char) := do
  let host := lowered a.host
  checkLabels host
  let port ← a.portNumber
  let host := if host.contains ':' then '[' :: host ++ [']'] else host
  let port := if port = 0 then [] else ':' :: (Decimal.intText port).toList
  return a.userText ++ host ++ port

end Authority

end Provision.Web
