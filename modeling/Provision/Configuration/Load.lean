import Provision.Configuration.Basic
import Provision.Workspace
import Provision.Yaml.Reader

/-! # Loading the configuration

The settings file is looked for in a directory and those above it. Variables of the environment
that are not empty override what it says, and a relative data root counts from the file. -/

namespace Provision

namespace Configuration

def logName : String := "installforge.core.config.loader"

def fileName : String := "installforge.yml"

/-- So many directories are looked at, the first included. -/
def searchLimit : Nat := 20

abbrev Environment := List (String × String)

/-- The variables that override fields. -/
def overrides : List (String × String) :=
  [("INSTALLFORGE_DATA_ROOT", "data_root"), ("PORT", "port"),
    ("INSTALLFORGE_LOG_LEVEL", "log_level"), ("INSTALLFORGE_LOG_FILE", "log_file")]

/-- What is wrong with a settings file. -/
inductive Fault where
  | notFound (path : Path)
  | unreadable (path : Path) (cause : DiskFault)
  | malformed (path : Path)
  | notMapping (path : Path) (typeName : String)
  | invalid (defects : List Defect)

def Fault.message : Fault → String
  | notFound path => "Config file not found: " ++ path.text
  | unreadable path cause => "Cannot read " ++ path.text ++ ": " ++ cause.message
  | malformed path => "Invalid YAML in " ++ path.text
  | notMapping path typeName =>
    "Expected a YAML mapping in " ++ path.text ++ ", got " ++ typeName
  | invalid defects => "Invalid settings: " ++ defectReport recordName defects

inductive Failure where
  | config (fault : Fault)
  | disk (fault : DiskFault)
  /-- A file that is no UTF-8 text. -/
  | encoding
  /-- A scalar that does not fit its type. -/
  | scalar (fault : Yaml.Fault)

abbrev LoadM := WorkM Failure

/-- The first settings file in a directory or one above it. -/
def searchFrom : Nat → Path → DiskM (Option Path)
  | 0, _ => return none
  | n + 1, dir => do
    let candidate := dir.child fileName
    if ← Disk.isFile candidate then return some candidate
    else if dir.names.isEmpty then return none
    else searchFrom n dir.parent

def find? (start : Path) : DiskM (Option Path) := do
  if start.hasNul then throw .nulByte
  searchFrom searchLimit ⟨.root, ((← get).absolute start).names⟩

def here : Path := ⟨.relative, []⟩

def entriesIn (path : Path) : Yaml.Document → LoadM Yaml.Entries
  | .mapping entries => return entries
  | .value .null => return []
  | .value v => throw (.config (.notMapping path v.typeName))

def unreadable (path : Path) (cause : DiskFault) : Failure :=
  match cause with
  | .nulByte => .disk cause
  | _ => .config (.unreadable path cause)

/-- The entries of a settings file. -/
def readFile (path : Path) : LoadM (Yaml.Entries) := do
  WorkM.log .debug logName ("Loading settings from " ++ path.text)
  let content ← WorkM.onDisk (unreadable path) (Disk.read path)
  match String.fromUTF8? content.toBytes with
  | none => throw .encoding
  | some text =>
    match Yaml.read text with
    | .ok v => entriesIn path v
    | .error .malformed => throw (.config (.malformed path))
    | .error f => throw (.scalar f)

/-- What the environment overrides. Empty variables count as unset. -/
def overriding (env : Environment) : Yaml.Entries :=
  overrides.filterMap fun (name, key) =>
    match env.lookup name with
    | none | some "" => none
    | some value => some (.str key, .str value)

/-- A relative data root counts from the directory of the settings file. -/
def anchored (file : Option Path) (c : Configuration) : Configuration :=
  match file with
  | some path => { c with dataRoot := path.parent.join c.dataRoot }
  | none => c

def ofParts (file : Option Path) (entries : Yaml.Entries) (env : Environment) :
    Checked Configuration :=
  (ofEntries (entries ++ overriding env)).map (anchored file)

/-- The settings file to load: the one given, which has to be there, or else one that is found. -/
def chosenFile (given : Option Path) : LoadM (Option Path) := do
  match given with
  | some path =>
    if ← WorkM.onDisk .disk (Disk.isFile path) then return some path
    else throw (.config (.notFound path))
  | none => WorkM.onDisk .disk (find? here)

def load (given : Option Path) (env : Environment) : LoadM Configuration := do
  let file ← chosenFile given
  let entries ←
    match file with
    | some path => readFile path
    | none => pure []
  match ofParts file entries env with
  | .bad ds => throw (.config (.invalid ds))
  | .ok c =>
    WorkM.log .debug logName
      ("Settings: data_root=" ++ c.dataRoot.text ++ " port=" ++ Decimal.intText c.port)
    return c

end Configuration

end Provision
