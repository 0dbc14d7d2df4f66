import Provision.Text.Utf8

/-! # Bytes behind percent signs

A percent sign and two hexadecimal digits stand for a byte. A percent sign that they do not follow
stands for itself. -/

namespace Provision.Web.Percent

def hexValue? (c : Char) : Option Nat :=
  if c.isDigit then some (c.toNat - 48)
  else
    let l := c.toLower
    if 'a' ≤ l && l ≤ 'f' then some (l.toNat - 87) else none

def byte? (a b : Char) : Option UInt8 := do
  return ((← hexValue? a) * 16 + (← hexValue? b)).toUInt8

/-- The characters of a text, with `ofByte` for those that are written as bytes. -/
def chars (ofByte : UInt8 → Char) : List Char → List Char
  | [] => []
  | '%' :: a :: b :: rest =>
    match byte? a b with
    | some x => ofByte x :: chars ofByte rest
    | none => '%' :: chars ofByte (a :: b :: rest)
  | c :: rest => c :: chars ofByte rest

def utf8 (c : Char) : List UInt8 :=
  c.toString.toUTF8.toList

/-- The bytes of a text, in UTF-8 where they are not written as bytes. -/
def bytes : List Char → List UInt8
  | [] => []
  | '%' :: a :: b :: rest =>
    match byte? a b with
    | some x => x :: bytes rest
    | none => 37 :: bytes (a :: b :: rest)
  | c :: rest => utf8 c ++ bytes rest

end Provision.Web.Percent
