import Provision.Command.Signature
import Provision.Configuration.Load
import Provision.Web.Api

/-! # Running a command line

The main command loads the configuration and sets up the log before the words of the command under
it are looked at. A run ends with an exit code, or with a failure that no command reports. -/

namespace Provision.Command

def version : String := "0.1.0"

/-- The server that was asked for. -/
structure Served where
  host : String
  port : Int
  debug : Bool
  deriving Repr

/-- Failures that no command reports. -/
inductive Crash where
  | project (failure : Failure)
  | configuration (failure : Configuration.Failure)
  | disk (fault : DiskFault)

inductive Stop where
  | exit (code : Nat)
  | usage (command : Name) (fault : UsageFault)
  | crash (cause : Crash)

/-- What a run has written, and the server it would run. -/
structure Output where
  text : String := ""
  served : Option Served := none

abbrev RunM := ExceptT Stop (StateT Output (StateM Workspace))

/-- What follows a code for a colour or the like, behind its bracket. -/
def afterCode? (cs : List Char) : Option (List Char) :=
  match cs.dropWhile fun c => c = ';' || c = '?' || c.isDigit with
  | c :: rest => if c.isAlpha then some rest else none
  | [] => none

/-- Takes away codes. The first argument is as long as the text. -/
def withoutCodes : Nat → List Char → List Char
  | 0, cs => cs
  | _, [] => []
  | n + 1, c :: cs =>
    match c, cs with
    | '\x1b', '[' :: rest =>
      match afterCode? rest with
      | some rest => withoutCodes n rest
      | none => c :: withoutCodes n cs
    | c, cs => c :: withoutCodes n cs

def stripCodes (cs : List Char) : List Char :=
  withoutCodes cs.length cs

/-- A text as it is written where there are no colours. -/
def plain (s : String) : String :=
  String.ofList (stripCodes s.toList)

/-- A carriage return in front of a line feed is not kept. -/
def unreturned : List Char → List Char
  | '\r' :: '\n' :: rest => '\n' :: unreturned rest
  | c :: rest => c :: unreturned rest
  | [] => []

def write (s : String) : RunM Unit :=
  modify fun o => { o with text := o.text ++ plain s }

def say (line : String) : RunM Unit :=
  write (line ++ "\n")

def sayAll : List String → RunM Unit
  | [] => return
  | l :: ls => do
    say l
    sayAll ls

def sayJson (v : Json) : RunM Unit :=
  say (v.toPretty .ascii)

/-- Ends the run with a message. -/
def abort {α : Type} (message : String) : RunM α := do
  say ("❌ " ++ message)
  throw (.exit 1)

/-- Runs an operation; its failure ends the run unless it is handled. -/
def work {ε α : Type} (x : WorkM ε α) (handle : ε → RunM α) : RunM α := do
  let (r, w) := x.run (← getThe Workspace)
  set w
  match r with
  | .ok a => return a
  | .error e => handle e

def crash {α : Type} (c : Crash) : RunM α :=
  throw (.crash c)

/-- Faults of the store are reported, other failures are not. -/
def stored {α : Type} (x : StoreM α) : RunM α :=
  work x fun f =>
    match f with
    | .store s => abort s.message
    | f => crash (.project f)

/-- No failure is reported. -/
def unhandled {α : Type} (x : StoreM α) : RunM α :=
  work x fun f => crash (.project f)

def onDisk {α : Type} (x : DiskM α) : RunM α :=
  work (WorkM.onDisk id x) fun f => crash (.disk f)

def log (severity : Log.Severity) (source message : String) : RunM Unit :=
  unhandled (WorkM.log severity source message)

/-- Whether a path as it is written leads to a plain file. -/
def isPlainFile (written : String) : DiskM Bool := do
  if written.endsWith "/" || written.endsWith "/." then return false
  else if written = "" then return false
  else tryCatch (Disk.isFile (.ofString written)) fun _ => return false

/-- Paths are looked at in any case. -/
def checkPath (written : String) : RunM Unit :=
  if (Path.ofString written).hasNul then crash (.disk .nulByte) else return

def checkValue (n : Name) (hint value : String) : ValueKind → RunM Unit
  | .text => return
  | .integer =>
    if (Decimal.integer? value).isSome then return
    else throw (.usage n (.notInteger hint value))
  | .oneOf choices =>
    if choices.contains value then return else throw (.usage n (.notAChoice hint value choices))
  | .path => checkPath value
  | .directory => do
    checkPath value
    if ← onDisk (isPlainFile value) then throw (.usage n (.isFile hint value))

def hintOf (o : Opt) : String :=
  " / ".intercalate (o.names.map fun name => "'" ++ name ++ "'")

def checkOptions (n : Name) (l : Line) : List Opt → RunM Unit
  | [] => return
  | o :: os => do
    match o.value, l.value? o.key with
    | some kind, some v => checkValue n (hintOf o) v kind
    | _, _ => pure ()
    checkOptions n l os

def checkArguments (n : Name) : List Argument → List String → RunM Unit
  | [], [] => return
  | [], extra => throw (.usage n (.extraArguments extra))
  | a :: _, [] => throw (.usage n (.missingArgument a.name))
  | a :: as, w :: ws => do
    checkValue n ("'" ++ a.name ++ "'") w a.value
    checkArguments n as ws

/-- What goes before everything else: the version, and how a command is used. -/
def runEager (n : Name) : List Opt → RunM Unit
  | [] => return
  | o :: os =>
    if o.key = "version" then do
      say ("installforge, version " ++ version)
      throw (.exit 0)
    else if o.key = "help" then do
      write n.usage
      throw (.exit 0)
    else runEager n os

/-- Reads the words of a command and checks what can be checked. -/
def readLine (n : Name) (words : List String) : RunM Line := do
  match Line.read n.signature words with
  | .error f => throw (.usage n f)
  | .ok l =>
    runEager n l.options
    checkOptions n l l.options
    if !n.signature.isGroup then checkArguments n n.signature.arguments l.words
    return l

/-- Whether a word reads as an option where options may stand. -/
def looksLikeOption (word : String) : Bool :=
  word.startsWith "-"

/-- The command that a group is given, and the words for it. -/
def resolve (n : Name) (words : List String) : RunM (Name × List String) := do
  match words with
  | [] => throw (.usage n .noCommand)
  | word :: rest =>
    match n.members.lookup word with
    | some m => return (m, rest)
    | none =>
      if looksLikeOption word then
        let _ ← readLine n words
      throw (.usage n (.noSuchCommand word (Text.closest word (n.members.map (·.1)))))

structure Context where
  quiet : Bool
  debug : Bool
  configuration : Configuration

abbrev Context.store (c : Context) : Store :=
  ⟨c.configuration.dataRoot⟩

def setUpLog (l : Line) (c : Configuration) (env : Configuration.Environment) : RunM Unit := do
  let debug := l.has "debug"
  let level := Log.levelFor debug (l.has "verbose") (l.has "quiet") c.logLevel
  let disk := (← getThe Workspace).disk
  let file := (c.logFile.filter (· ≠ "")).map fun f => disk.absolute (.ofString f)
  let setup := Log.setup level file (env.lookup "INSTALLFORGE_LOG_FILE_LEVEL") (!debug)
  match file with
  | some p => onDisk (Disk.hold p)
  | none => pure ()
  modifyThe Workspace fun w => { w with log := setup }

def start (l : Line) (env : Configuration.Environment) : RunM Context := do
  let file := ((l.value? "config").filter (· ≠ "")).map Path.ofString
  let configuration ← work (Configuration.load file env) fun f =>
    match f with
    | .config fault => abort fault.message
    | f => crash (.configuration f)
  setUpLog l configuration env
  return { quiet := l.has "quiet", debug := l.has "debug", configuration }

/-! ### Findings -/

def issueLine (i : Issue) : String :=
  "   • [" ++ i.label ++ "] " ++ i.message

def number (n : Nat) : String :=
  Decimal.intText n

def errors (issues : List Issue) : List Issue :=
  issues.filter (·.level == .error)

def warnings (issues : List Issue) : List Issue :=
  issues.filter (·.level == .warn)

def sayErrors (issues : List Issue) : RunM Unit :=
  if issues.isEmpty then return
  else do
    say ("❌ Errors (" ++ number issues.length ++ "):")
    sayAll (issues.map issueLine)

def sayWarnings (c : Context) (issues : List Issue) : RunM Unit :=
  if issues.isEmpty || c.quiet then return
  else do
    say ("⚠️  Warnings (" ++ number issues.length ++ "):")
    sayAll (issues.map issueLine)

def validate (c : Context) (l : Line) (room : Room := .standard) (troubles : Disk.Troubles := .none) :
    RunM Unit := do
  let file := Path.ofString (l.word 0)
  let recipe ← stored (Store.readRecipe file room troubles)
  let issues ← unhandled (Compile.check recipe room)
  let failed := hasErrors issues
  if l.has "json" then
    sayJson (.obj [("valid", .bool (!failed)), ("issues", .arr (issues.map Issue.wire))])
    throw (.exit (if failed then 1 else 0))
  else if issues.isEmpty then
    let name := if recipe.project.name = "" then file.name else recipe.project.name
    say ("✅ " ++ name ++ ": no issues")
  else
    sayErrors (errors issues)
    sayWarnings c (warnings issues)
    if failed then throw (.exit 1)

/-- A failed compilation is reported where it has a report. -/
def compiled (recipe : Recipe) (room : Room := .standard) : RunM Artifacts :=
  work (Compile.compile recipe none room) fun f =>
    match f with
    | .compile fault =>
      match fault.report? with
      | some report => abort report
      | none => crash (.project f)
    | f => crash (.project f)

def writeArtifacts (dir : Path) (a : Artifacts) (troubles : Disk.Troubles := .none) : DiskM Unit := do
  Disk.makeDirs dir troubles
  Disk.writeText (dir.child Bundle.scriptFile) a.installSh troubles
  Disk.chmod (dir.child Bundle.scriptFile) 0o755 troubles
  Disk.writeText (dir.child Bundle.notesFile) a.readme troubles
  Disk.writeText (dir.child Save.recipeFile) a.recipeJson troubles

def findingLine (i : Issue) : String :=
  "   " ++ i.level.text ++ ": [" ++ i.label ++ "] " ++ i.message

def render (l : Line) (room : Room := .standard) (troubles : Disk.Troubles := .none) : RunM Unit := do
  let recipe ← stored (Store.readRecipe (.ofString (l.word 0)) room troubles)
  let a ← compiled recipe room
  if l.has "json" then sayJson a.wire
  else
    match l.value? "out" with
    | none => write a.installSh
    | some out =>
      let dir := Path.ofString out
      onDisk (writeArtifacts dir a troubles)
      say ("📦 Rendered to " ++ dir.text)
      sayAll (a.issues.map findingLine)

/-- The host that is asked for; an empty one counts as none. -/
def hostFor (l : Line) (c : Configuration) : String :=
  ((l.value? "host").filter (· ≠ "")).getD c.host

/-- The port that is asked for; zero counts as none. -/
def portFor (l : Line) (c : Configuration) : Int :=
  (((l.value? "port").bind Decimal.integer?).filter (· ≠ 0)).getD c.port

def web (c : Context) (l : Line) : RunM Unit := do
  let root := c.configuration.dataRoot
  let host := hostFor l c.configuration
  let port := portFor l c.configuration
  log .info Web.logName ("Web API app created (data_root=" ++ root.text ++ ")")
  let address := host ++ ":" ++ Decimal.intText port
  say ""
  say "⚡ InstallForge — API server"
  if !Json.fitsDigitLimit port then crash (.project .digits)
  say ("   Listening: http://" ++ address)
  say ("   Data root: " ++ root.text)
  say ""
  log .info Web.logName ("InstallForge listening on http://" ++ address)
  modify fun o => { o with served := some ⟨host, port, c.debug⟩ }

def padded (width : Nat) (s : String) : String :=
  Log.paddedTo width s

def projectLine (p : Project) : String :=
  let targets := if p.target.isEmpty then "-" else ", ".intercalate p.target
  "   " ++ p.id ++ "  " ++ padded 24 p.name ++ " [" ++ targets ++ "]"

def listProjects (c : Context) (l : Line) (room : Room := .standard) (troubles : Disk.Troubles := .none) :
    RunM Unit := do
  let projects ← unhandled (c.store.listProjects room troubles)
  if l.has "json" then sayJson (.arr (projects.map Project.wire))
  else if projects.isEmpty then say "No projects found."
  else
    say ("📁 Projects (" ++ number projects.length ++ "):")
    sayAll (projects.map projectLine)

def written {ε α : Type} (fault : ε → WriteFault) (x : Except ε α) : RunM α :=
  match x with
  | .ok a => return a
  | .error e => crash (.project (.write (fault e)))

def createProject (c : Context) (l : Line) (troubles : Disk.Troubles := .none) : RunM Unit := do
  let r ← stored (c.store.createProject (l.word 0) ((l.value? "description").getD "")
    (l.values "target") troubles)
  if l.has "json" then sayJson (← written id r.wire)
  else
    say ("✅ Created " ++ r.project.name)
    say ("   id: " ++ r.project.id)

def showProject (c : Context) (l : Line) (room : Room := .standard) (troubles : Disk.Troubles := .none) :
    RunM Unit := do
  let r ← stored (c.store.loadRecipe (l.word 0) room troubles)
  say (← written id r.canonical)

def exportProject (c : Context) (l : Line) (room : Room := .standard) (troubles : Disk.Troubles := .none) :
    RunM Unit := do
  let outcome ← stored (Bundle.exportProject c.store
    { project := l.word 0, target := (l.value? "out").map Path.ofString,
      format := (l.value? "format").getD Bundle.Format.dir.name } room troubles)
  if l.has "json" then
    sayJson outcome.wire
    throw (.exit (if outcome.isWritten then 0 else 1))
  else
    match outcome with
    | .refused issues =>
      say "❌ Export refused — fix these errors first:"
      sayAll ((errors issues).map issueLine)
      throw (.exit 1)
    | .failed error _ => abort error
    | .written path issues =>
      say ("📦 Bundle written to " ++ path.text)
      sayWarnings c (warnings issues)

def perform (c : Context) (l : Line) (n : Name) (room : Room := .standard)
    (troubles : Disk.Troubles := .none) : RunM Unit :=
  match n with
  | .validate => validate c l room troubles
  | .render => render l room troubles
  | .web => web c l
  | .list => listProjects c l room troubles
  | .create => createProject c l troubles
  | .show => showProject c l room troubles
  | .export => exportProject c l room troubles
  | .main | .projects => return

/-- A group without words shows how it is used. -/
def needsWords (n : Name) (words : List String) : RunM Unit :=
  if words.isEmpty then do
    unhandled (modify fun w => { w with console := w.console ++ n.usage })
    throw (.exit 2)
  else return

def runMain (words : List String) (env : Configuration.Environment) (room : Room := .standard)
    (troubles : Disk.Troubles := .none) : RunM Unit := do
  needsWords .main words
  let l ← readLine .main words
  let (n, rest) ← resolve .main l.words
  let c ← start l env
  match n with
  | .projects =>
    needsWords .projects rest
    let g ← readLine .projects rest
    let (m, rest) ← resolve .projects g.words
    perform c (← readLine m rest) m room troubles
  | n => perform c (← readLine n rest) n room troubles

/-- How a run ended. -/
structure Result where
  exitCode : Nat
  text : String
  errorText : String
  crash : Option Crash := none
  served : Option Served := none

/-- What a run that has ended so has written, with what has been logged. -/
def resultOf (ended : Except Stop Unit) (output : Output) (logged : String) : Result :=
  let result : Result :=
    { exitCode := 0, text := output.text, errorText := logged, served := output.served }
  match ended with
  | .ok () => result
  | .error (.exit code) => { result with exitCode := code }
  | .error (.usage n f) => { result with exitCode := 2, errorText := logged ++ plain (n.report f) }
  | .error (.crash c) => { result with exitCode := 1, crash := some c }

def Result.unreturned (r : Result) : Result :=
  let shown (s : String) : String := String.ofList (Command.unreturned s.toList)
  { r with text := shown r.text, errorText := shown r.errorText }

/-- Runs a command line. Its log setup does not outlive it. `room` is how many calls may be made inside each other in a
command, and `troubles` is what the system refuses to a command. -/
def run (words : List String) (env : Configuration.Environment) (room : Room := .standard)
    (troubles : Disk.Troubles := .none) : StateM Workspace Result := do
  modify Workspace.withoutLog
  let (ended, output) ← ((runMain words env room troubles).run).run {}
  let logged := (← get).console
  modify Workspace.withoutLog
  return (resultOf ended output logged).unreturned

end Provision.Command
