import Provision.Disk.Path
import Provision.Text.Case
import Provision.Timestamp

/-! # Log records

Records are written by handlers: one for the console, and one for a file where a file is asked for.
A handler drops what is below its threshold and decides how the rest looks. -/

namespace Provision

namespace Log

inductive Severity where
  | all
  | debug
  | info
  | warning
  | error
  | critical
  deriving DecidableEq, Repr

namespace Severity

def rank : Severity → Nat
  | all => 0
  | debug => 10
  | info => 20
  | warning => 30
  | error => 40
  | critical => 50

def name : Severity → String
  | all => "NOTSET"
  | debug => "DEBUG"
  | info => "INFO"
  | warning => "WARNING"
  | error => "ERROR"
  | critical => "CRITICAL"

/-- The names in settings, in capital letters. Two severities have a second name. -/
def byName : List (String × Severity) :=
  [("NOTSET", all), ("DEBUG", debug), ("INFO", info), ("WARNING", warning), ("WARN", warning),
    ("ERROR", error), ("CRITICAL", critical), ("FATAL", critical)]

/-- A severity by its name in any case; unknown names mean warnings. -/
def ofName (s : String) : Severity :=
  (byName.lookup (Text.upper s)).getD warning

def least (a b : Severity) : Severity :=
  if a.rank ≤ b.rank then a else b

end Severity

/-- The level that options ask for, the strongest first, or else the fallback. -/
def levelFor (debug verbose quiet : Bool) (fallback : String) : String :=
  if debug then "DEBUG"
  else if verbose then "INFO"
  else if quiet then "ERROR"
  else if fallback = "" then "WARNING"
  else fallback

/-- How a line looks: everything, the time and the source, or the message alone. -/
inductive Layout where
  | detailed (date : Bool)
  | timed
  | bare
  deriving DecidableEq, Repr

inductive Sink where
  | console
  | file (path : Path)
  deriving DecidableEq, Repr

structure Handler where
  threshold : Severity
  layout : Layout
  sink : Sink
  deriving DecidableEq, Repr

/-- Who writes where. Records below the threshold reach no handler. -/
structure Setup where
  threshold : Severity
  handlers : List Handler
  /-- Whether the records of the web server are held at warnings. -/
  quietServer : Bool
  deriving DecidableEq, Repr

def consoleLayout (s : Severity) : Layout :=
  if s.rank < Severity.info.rank then .detailed false
  else if s.rank < Severity.warning.rank then .timed
  else .bare

/-- A console handler, and a file handler with full detail where a file is given. A file without a
level of its own takes the console's. -/
def setup (level : String) (file : Option Path) (fileLevel : Option String)
    (quietThirdParty : Bool) : Setup :=
  let console := Severity.ofName level
  let quietServer := quietThirdParty && Severity.debug.rank < console.rank
  let onConsole : Handler := ⟨console, consoleLayout console, .console⟩
  match file with
  | none => ⟨console, [onConsole], quietServer⟩
  | some path =>
    let inFile :=
      match fileLevel with
      | none | some "" => console
      | some l => .ofName l
    ⟨console.least inFile, [onConsole, ⟨inFile, .detailed true, .file path⟩], quietServer⟩

/-- Before a setup nothing is written. -/
def Setup.none : Setup := ⟨.warning, [], false⟩

structure Record where
  severity : Severity
  source : String
  message : String
  deriving DecidableEq, Repr

def paddedTo (width : Nat) (s : String) : String :=
  s ++ String.ofList (List.replicate (width - s.length) ' ')

def clockText (now : Timestamp) : String :=
  String.ofList ((Timestamp.timeText now.toUtc.clock).take 8)

def dateText (now : Timestamp) : String :=
  String.ofList (Timestamp.dateText now.toUtc.clock)

/-- The line of a record. -/
def Layout.line (now : Timestamp) (r : Record) : Layout → String
  | detailed date =>
    (if date then dateText now ++ " " else "") ++ clockText now ++ " " ++
      paddedTo 5 r.severity.name ++ " " ++ r.source ++ " — " ++ r.message ++ "\n"
  | timed => clockText now ++ " [" ++ r.source ++ "] " ++ r.message ++ "\n"
  | bare => r.message ++ "\n"

/-- The lines of a record, each with where it goes. -/
def Setup.lines (s : Setup) (now : Timestamp) (r : Record) : List (Sink × String) :=
  if r.severity.rank < s.threshold.rank then []
  else
    (s.handlers.filter fun h => h.threshold.rank ≤ r.severity.rank).map fun h =>
      (h.sink, h.layout.line now r)

end Log

end Provision
