import Provision.Decimal.Integer
import Provision.Text.Quoted
import Provision.Text.Similarity

/-! # Command lines

A command takes options and arguments. `Line.read` tells them apart: an option is known by its
names, takes the next word as its value or none, and short options may share a word. -/

namespace Provision.Command

/-- What the value of an option or an argument has to be. -/
inductive ValueKind where
  | text
  | integer
  | oneOf (choices : List String)
  /-- A path; what is there may be anything. -/
  | path
  /-- A path where no plain file may be. -/
  | directory
  deriving DecidableEq, Repr

structure Opt where
  key : String
  /-- The names, in the order in which messages give them. -/
  names : List String
  /-- Absent for a switch. -/
  value : Option ValueKind := none
  deriving DecidableEq, Repr

structure Argument where
  name : String
  value : ValueKind
  deriving DecidableEq, Repr

/-- What a command takes. -/
structure Signature where
  options : List Opt
  arguments : List Argument := []
  /-- Whether the first word that is no option ends the options. -/
  isGroup : Bool := false

inductive UsageFault where
  | noSuchOption (name : String) (similar : List String)
  | noSuchCommand (name : String) (similar : List String)
  | noCommand
  | needsValue (option : String)
  | takesNoValue (option : String)
  | missingArgument (name : String)
  | extraArguments (words : List String)
  | notInteger (hint value : String)
  | notAChoice (hint value : String) (choices : List String)
  | isFile (hint value : String)
  deriving DecidableEq, Repr

namespace UsageFault

def invalid (hint reason : String) : String :=
  "Invalid value for " ++ hint ++ ": " ++ reason

/-- The names that may have been meant. -/
def suggestion : List String → String
  | [] => ""
  | [name] => " Did you mean " ++ quoted name ++ "?"
  | names => " (Did you mean one of: " ++ ", ".intercalate (names.map quoted) ++ "?)"

def message : UsageFault → String
  | noSuchOption name similar => "No such option " ++ quoted name ++ "." ++ suggestion similar
  | noSuchCommand name similar => "No such command " ++ quoted name ++ "." ++ suggestion similar
  | noCommand => "Missing command."
  | needsValue option => "Option " ++ quoted option ++ " requires an argument."
  | takesNoValue option => "Option " ++ quoted option ++ " does not take a value."
  | missingArgument name => "Missing argument '" ++ name ++ "'."
  | extraArguments words =>
    (if words.length = 1 then "Got unexpected extra argument ("
      else "Got unexpected extra arguments (") ++ " ".intercalate words ++ ")"
  | notInteger hint value => invalid hint (quoted value ++ " is not a valid integer.")
  | notAChoice hint value choices =>
    invalid hint (quoted value ++ " is not one of " ++ ", ".intercalate (choices.map quoted) ++ ".")
  | isFile hint value => invalid hint ("Directory " ++ quoted value ++ " is a file.")

/-- Whether the usage of the command stands above the message. -/
def hasUsage : UsageFault → Bool
  | needsValue _ | takesNoValue _ => false
  | _ => true

end UsageFault

def isShort (name : String) : Bool :=
  name.length = 2

def find? (options : List Opt) (name : String) : Option Opt :=
  options.find? (·.names.contains name)

/-- The names that stand alone in a word. -/
def longNames (options : List Opt) : List String :=
  (options.flatMap (·.names)).filter (!isShort ·)

def findLong? (options : List Opt) (name : String) : Option Opt :=
  if isShort name then none else find? options name

/-- An option as given, with its value. -/
structure Given where
  option : Opt
  value : Option String := none

/-- What a word that begins with a dash says: the options in it, and one that waits for the next
word as its value, by the name it was given. -/
structure Reading where
  given : List Given := []
  waiting : Option (Opt × String) := none

/-- Short options in one word. What follows one that takes a value is its value. -/
def readShort (options : List Opt) : List Char → Except UsageFault Reading
  | [] => .ok {}
  | c :: cs =>
    let name := String.ofList ['-', c]
    match find? options name with
    | none => .error (.noSuchOption name [])
    | some o =>
      if o.value.isSome then
        if cs.isEmpty then .ok ⟨[], some (o, name)⟩
        else .ok ⟨[⟨o, some (String.ofList cs)⟩], none⟩
      else (readShort options cs).map fun r => { r with given := ⟨o, none⟩ :: r.given }

/-- The part before the first equals sign, and the part behind it. -/
def splitValue (word : String) : String × Option String :=
  let cs := word.toList
  match cs.dropWhile (· ≠ '=') with
  | [] => (word, none)
  | _ :: value => (String.ofList (cs.takeWhile (· ≠ '=')), some (String.ofList value))

def readWord (options : List Opt) (word : String) : Except UsageFault Reading :=
  let (name, value) := splitValue word
  match findLong? options name with
  | some o =>
    match o.value.isSome, value with
    | true, some v => .ok ⟨[⟨o, some v⟩], none⟩
    | true, none => .ok ⟨[], some (o, name)⟩
    | false, some _ => .error (.takesNoValue name)
    | false, none => .ok ⟨[⟨o, none⟩], none⟩
  | none =>
    if word.startsWith "--" then
      .error (.noSuchOption name (Text.closest name (longNames options)))
    else readShort options (word.toList.drop 1)

def isOption (word : String) : Bool :=
  word.startsWith "-" && word ≠ "-"

/-- A command line: options in their order, and the words that are none. -/
structure Line where
  given : List Given := []
  words : List String := []

namespace Line

def read (s : Signature) : List String → Except UsageFault Line
  | [] => .ok {}
  | word :: rest =>
    if word = "--" then .ok ⟨[], rest⟩
    else if isOption word then do
      let r ← readWord s.options word
      match r.waiting with
      | none =>
        let l ← read s rest
        return { l with given := r.given ++ l.given }
      | some (o, name) =>
        match rest with
        | value :: rest =>
          let l ← read s rest
          return { l with given := r.given ++ ⟨o, some value⟩ :: l.given }
        | [] => .error (.needsValue name)
    else if s.isGroup then .ok ⟨[], word :: rest⟩
    else (read s rest).map fun l => { l with words := word :: l.words }

/-- Whether a switch was given. -/
def has (l : Line) (key : String) : Bool :=
  l.given.any (·.option.key == key)

/-- All values of an option. -/
def values (l : Line) (key : String) : List String :=
  l.given.filterMap fun g => if g.option.key = key then g.value else none

/-- The value of an option; the last counts. -/
def value? (l : Line) (key : String) : Option String :=
  (l.values key).getLast?

def word (l : Line) (i : Nat) : String :=
  l.words.getD i ""

/-- The options given, each once, in the order in which they come first. -/
def options (l : Line) : List Opt :=
  (l.given.map (·.option)).eraseDups

end Line

end Provision.Command
