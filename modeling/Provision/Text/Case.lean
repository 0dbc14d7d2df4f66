/-! # Letter case against fixed words

Switch words, modes and level names are plain ASCII, so a text is compared with them after folding
the few characters whose other case is an ASCII letter. -/

namespace Provision.Text

/-- Lower case of ASCII letters. No other character has a lower case that is one of the letters of
the words this library compares with. -/
def lower (s : String) : String :=
  String.ofList (s.toList.map Char.toLower)

/-- Upper case of ASCII letters, and of the dotless i and the long s, whose upper case is ASCII. -/
def upperChar (c : Char) : Char :=
  if c = 'ı' then 'I' else if c = 'ſ' then 'S' else c.toUpper

def upper (s : String) : String :=
  String.ofList (s.toList.map upperChar)

end Provision.Text
