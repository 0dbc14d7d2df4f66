/-! # Blanks, words and lines

Which characters are blank, which end a line, and how a text falls into words and lines.
`trim`, `words` and `lines` work on `List Char`; `String` versions sit at the end. -/

namespace Provision.Text

/-- The white space of Unicode. -/
def isSpace (c : Char) : Bool :=
  let n := c.toNat
  (9 ≤ n && n ≤ 13) || n == 32 || n == 0x85 || n == 0xA0 || n == 0x1680 ||
    (0x2000 ≤ n && n ≤ 0x200A) || n == 0x2028 || n == 0x2029 || n == 0x202F || n == 0x205F ||
    n == 0x3000

/-- Characters that separate words: white space and the four separators U+001C to U+001F. -/
def isBlank (c : Char) : Bool :=
  isSpace c || ('\x1c' ≤ c && c ≤ '\x1f')

/-- Characters that end a line. U+001F is blank but ends no line. -/
def isLineBreak (c : Char) : Bool :=
  let n := c.toNat
  (10 ≤ n && n ≤ 13) || (28 ≤ n && n ≤ 30) || n == 0x85 || n == 0x2028 || n == 0x2029

/-- The pieces between the characters that satisfy `p`: always one more than there are such
characters. -/
def pieces (p : Char → Bool) : List Char → List (List Char)
  | [] => [[]]
  | c :: cs =>
    if p c then [] :: pieces p cs
    else match pieces p cs with
      | [] => [[c]]
      | w :: ws => (c :: w) :: ws

def words (cs : List Char) : List (List Char) :=
  (pieces isBlank cs).filter (! ·.isEmpty)

/-- Lines without their ends. A carriage return and the newline after it end one line, and a line
end at the very end opens no further line. -/
def lines : List Char → List (List Char)
  | [] => []
  | '\r' :: '\n' :: cs => [] :: lines cs
  | c :: cs =>
    if isLineBreak c then [] :: lines cs
    else match lines cs with
      | [] => [[c]]
      | l :: ls => (c :: l) :: ls

/-- Drops characters that satisfy `p` from both ends. -/
def strip (p : Char → Bool) (cs : List Char) : List Char :=
  ((cs.dropWhile p).reverse.dropWhile p).reverse

def trim (cs : List Char) : List Char :=
  strip isBlank cs

end Provision.Text

namespace Provision

def trimmed (s : String) : String :=
  String.ofList (Text.trim s.toList)

def wordsOf (s : String) : List String :=
  (Text.words s.toList).map String.ofList

def linesOf (s : String) : List String :=
  (Text.lines s.toList).map String.ofList

end Provision
