/-! # Programs for the stream editor

A substitution is written between delimiters. The delimiter is a character that the parts do not
hold where there is one; otherwise, and for characters with a meaning, a backslash stands in
front. -/

namespace Provision.Sed

/-- Candidates for the delimiter, in order of preference. -/
def delimiters : List Char :=
  ['/', '|', '#', '@', '%', ',', ':', '~']

/-- The first candidate that no part holds, or else the first of all. -/
def delimiter (parts : List String) : Char :=
  (delimiters.find? fun d => parts.all fun p => !p.toList.contains d).getD '/'

/-- The characters with a meaning in a basic regular expression. -/
def patternSpecials : List Char :=
  ['\\', '.', '*', '[', ']', '^', '$']

/-- The characters with a meaning in a replacement. -/
def replacementSpecials : List Char :=
  ['\\', '&']

/-- Writes a backslash before the given characters and the delimiter. -/
def escape (specials : List Char) (delim : Option Char) (s : String) : String :=
  String.ofList (s.toList.flatMap fun c =>
    if specials.contains c || delim = some c then ['\\', c] else [c])

def literalPattern (delim : Option Char) (s : String) : String :=
  escape patternSpecials delim s

def literalReplacement (delim : Option Char) (s : String) : String :=
  escape replacementSpecials delim s

/-- Writes a backslash before each delimiter that has none. `escaped` tells that the character
before was a backslash that escapes. -/
def protect (delim : Option Char) (escaped : Bool) : List Char → List Char
  | [] => []
  | c :: cs =>
    (if delim = some c && !escaped then ['\\', c] else [c]) ++
      protect delim (c = '\\' && !escaped) cs

def protectDelimiter (delim : Option Char) (s : String) : String :=
  String.ofList (protect delim false s.toList)

end Provision.Sed
