/-! # Bytes in base 64

Four characters of an alphabet of 64 stand for three bytes. `decode?` passes over everything that is
not in the alphabet, and ends at the equals signs that fill up the last four. -/

namespace Provision.Base64

/-- The six bits of a character. -/
def sextet? (c : Char) : Option Nat :=
  if 'A' ≤ c && c ≤ 'Z' then some (c.toNat - 65)
  else if 'a' ≤ c && c ≤ 'z' then some (c.toNat - 71)
  else if c.isDigit then some (c.toNat + 4)
  else if c = '+' then some 62
  else if c = '/' then some 63
  else none

/-- How far a text has been read. -/
structure Reading where
  /-- How many characters of the present four have been read. -/
  position : Nat := 0
  /-- The bits that no byte has been made of. -/
  bits : Nat := 0
  /-- The equals signs in a row behind two characters or more. -/
  fills : Nat := 0

/-- Reads six bits, which may complete a byte. -/
def Reading.next (r : Reading) (sextet : Nat) : Reading × List UInt8 :=
  if r.position = 0 then (⟨1, sextet, 0⟩, [])
  else if r.position = 1 then (⟨2, sextet % 16, 0⟩, [(r.bits * 4 + sextet / 16).toUInt8])
  else if r.position = 2 then (⟨3, sextet % 4, 0⟩, [(r.bits * 16 + sextet / 4).toUInt8])
  else (⟨0, 0, 0⟩, [(r.bits * 64 + sextet).toUInt8])

/-- The bytes of a text. There are none where the last four characters are not filled up. -/
def decodeFrom (r : Reading) : List Char → Option (List UInt8)
  | [] => if r.position = 0 then some [] else none
  | c :: cs =>
    if c = '=' then
      if 2 ≤ r.position then
        if 4 ≤ r.position + r.fills + 1 then some []
        else decodeFrom { r with fills := r.fills + 1 } cs
      else decodeFrom r cs
    else
      match sextet? c with
      | none => decodeFrom r cs
      | some n => (decodeFrom (r.next n).1 cs).map ((r.next n).2 ++ ·)

def decode? (cs : List Char) : Option ByteArray :=
  (decodeFrom {} cs).map fun bytes => ⟨bytes.toArray⟩

end Provision.Base64
