import Provision.Text.Printable

/-! # Quoted text

A text in messages stands between quotes: apostrophes, or double quotes when the text holds an
apostrophe and no double quote. The quote in use, backslashes and unprintable characters are
escaped. -/

namespace Provision.Text

/-- The lower-case hexadecimal digit of a number below 16. -/
def hexDigit (n : Nat) : Char :=
  Nat.digitChar n

/-- The last `width` hexadecimal digits of `n`. -/
def hex : Nat → Nat → List Char
  | 0, _ => []
  | width + 1, n => hex width (n / 16) ++ [hexDigit (n % 16)]

/-- An unprintable character by its number: `\xNN`, `\uNNNN` or `\UNNNNNNNN`. -/
def numbered (c : Char) : List Char :=
  let n := c.toNat
  if n < 0x100 then '\\' :: 'x' :: hex 2 n
  else if n < 0x10000 then '\\' :: 'u' :: hex 4 n
  else '\\' :: 'U' :: hex 8 n

def quotedChar (quote c : Char) : List Char :=
  if c = quote || c = '\\' then ['\\', c]
  else if c = '\t' then ['\\', 't']
  else if c = '\n' then ['\\', 'n']
  else if c = '\r' then ['\\', 'r']
  else if isPrintable c then [c]
  else numbered c

/-- The quote that needs the fewest escapes, an apostrophe when both would do. -/
def quoteOf (cs : List Char) : Char :=
  if cs.contains '\x27' && !cs.contains '\x22' then '\x22' else '\x27'

def quotedChars (cs : List Char) : List Char :=
  let q := quoteOf cs
  q :: cs.flatMap (quotedChar q) ++ [q]

end Provision.Text

namespace Provision

def quoted (s : String) : String :=
  String.ofList (Text.quotedChars s.toList)

end Provision
