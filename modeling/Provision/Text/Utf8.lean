/-! # Reading bytes as text

`Utf8.decode` reads bytes as UTF-8 and puts one replacement character for every run of bytes that
begins like a character and does not go on like one. -/

namespace Provision.Utf8

def replacement : Char := '\uFFFD'

def isBetween (lo hi b : UInt8) : Bool :=
  lo ≤ b && b ≤ hi

def isTail (b : UInt8) : Bool :=
  isBetween 0x80 0xBF b

/-- Whether a second byte may follow a first one of three or four. -/
def fits (a b : UInt8) : Bool :=
  if a = 0xE0 then isBetween 0xA0 0xBF b
  else if a = 0xED then isBetween 0x80 0x9F b
  else if a = 0xF0 then isBetween 0x90 0xBF b
  else if a = 0xF4 then isBetween 0x80 0x8F b
  else isTail b

/-- The six bits of a byte that is not the first. -/
def bits (b : UInt8) : Nat :=
  b.toNat % 64

def decode : List UInt8 → List Char
  | [] => []
  | a :: rest =>
    if a < 0x80 then Char.ofNat a.toNat :: decode rest
    else if isBetween 0xC2 0xDF a then
      match rest with
      | b :: rest =>
        if isTail b then Char.ofNat (a.toNat % 32 * 64 + bits b) :: decode rest
        else replacement :: decode (b :: rest)
      | [] => [replacement]
    else if isBetween 0xE0 0xEF a then
      match rest with
      | b :: c :: rest =>
        if !fits a b then replacement :: decode (b :: c :: rest)
        else if !isTail c then replacement :: decode (c :: rest)
        else Char.ofNat ((a.toNat % 16 * 64 + bits b) * 64 + bits c) :: decode rest
      | [b] => if fits a b then [replacement] else replacement :: decode [b]
      | [] => [replacement]
    else if isBetween 0xF0 0xF4 a then
      match rest with
      | b :: c :: d :: rest =>
        if !fits a b then replacement :: decode (b :: c :: d :: rest)
        else if !isTail c then replacement :: decode (c :: d :: rest)
        else if !isTail d then replacement :: decode (d :: rest)
        else
          Char.ofNat (((a.toNat % 8 * 64 + bits b) * 64 + bits c) * 64 + bits d) :: decode rest
      | [b, c] =>
        if !fits a b then replacement :: decode [b, c]
        else if !isTail c then replacement :: decode [c]
        else [replacement]
      | [b] => if fits a b then [replacement] else replacement :: decode [b]
      | [] => [replacement]
    else replacement :: decode rest
termination_by bs => bs.length

end Provision.Utf8
