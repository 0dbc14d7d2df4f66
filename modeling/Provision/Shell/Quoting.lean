/-! # Quoting for the shell

`doubleQuoted` keeps a value in one word and leaves `$` alone, so variables still expand on the
target. `singleQuoted` keeps a value in one word as it stands. A line of a script is a list of
pieces, which says what in it is code and what is a quoted value. -/

namespace Provision.Shell

/-- Backslashes, double quotes and backquotes keep their meaning only behind a backslash. -/
def escapeDouble (c : Char) : List Char :=
  if c = '\\' || c = '\x22' || c = '\x60' then ['\\', c] else [c]

def doubleQuoted (s : String) : String :=
  String.ofList ('\x22' :: s.toList.flatMap escapeDouble ++ ['\x22'])

/-- An apostrophe leaves the quotes, stands between double quotes, and enters them again. -/
def escapeSingle (c : Char) : List Char :=
  if c = '\x27' then ['\x27', '\x22', '\x27', '\x22', '\x27'] else [c]

def singleQuoted (s : String) : String :=
  String.ofList ('\x27' :: s.toList.flatMap escapeSingle ++ ['\x27'])

def isNameStart (c : Char) : Bool :=
  c.isAlpha || c = '_'

def isNameChar (c : Char) : Bool :=
  c.isAlphanum || c = '_'

/-- Whether a text names a shell variable. -/
def isIdentifier : List Char → Bool
  | [] => false
  | c :: cs => isNameStart c && cs.all isNameChar

/-- Drops one newline at the very end. -/
def chomp (cs : List Char) : List Char :=
  if cs.getLast? = some '\n' then cs.dropLast else cs

/-- Accepts variable names, also with one newline at the end. -/
def isName (s : String) : Bool :=
  isIdentifier (chomp s.toList)

/-- A part of a line: shell code, or a value in quotes. -/
inductive Piece where
  | code (text : String)
  | double (value : String)
  | single (value : String)
  deriving DecidableEq, Repr

namespace Piece

def text : Piece → String
  | code t => t
  | double v => doubleQuoted v
  | single v => singleQuoted v

end Piece

abbrev Line := List Piece

namespace Line

def text (l : Line) : String :=
  String.join (l.map Piece.text)

/-- The line two blanks further in; an empty line stays empty. -/
def indented (l : Line) : Line :=
  if l.text = "" then l else .code "  " :: l

end Line

end Provision.Shell
