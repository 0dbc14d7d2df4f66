import Provision.Recipe.Defect
import Provision.Recipe.Wire
import Provision.Step.Kind
import Provision.Step.Setting

/-! # What a step does

`Settings.read` gives every setting that a kind declares its form, `Action.ofSettings` names them:
an action holds all that the shell block of a step depends on. -/

namespace Provision

/-- The value of a setting in its form. -/
inductive Setting where
  | text (s : String)
  | flag (b : Bool)
  | list (items : List String)
  deriving DecidableEq, Repr

abbrev Settings := List (String × Setting)

inductive SettingsFault where
  | tooDeep
  | defects (record : String) (ds : List Defect)

/-- An absent setting means the same as `null`. -/
def Form.read (form : Form) (value : Option Json) (room : Nat := Json.freeCalls) :
    Except TextFault Setting :=
  let v := value.getD .null
  match form with
  | .text => (v.text room).map .text
  | .flag default => .ok (.flag (v.flag default))
  | .words => (v.words room).map .list
  | .lines => (v.lines room).map .list

namespace Settings

/-- What is wrong with a setting that has no text for its digits. -/
def defect? (config : Members) : String × Except TextFault Setting → Option Defect
  | (key, .error .tooManyDigits) =>
    some ⟨[.key key], .unwritable WriteFault.tooManyDigits.message, (config.get? key).getD .null⟩
  | _ => none

def value? : String × Except TextFault Setting → Option (String × Setting)
  | (key, .ok s) => some (key, s)
  | (_, .error _) => none

def isTooDeep : String × Except TextFault Setting → Bool
  | (_, .error .tooDeep) => true
  | _ => false

/-- Reads the declared settings of a kind. -/
def read (k : Kind) (config : Members) (room : Room := .standard) :
    Except SettingsFault Settings :=
  let readings := k.settings.map fun (key, form) =>
    (key, form.read (config.get? key) (room.forms form))
  if readings.any isTooDeep then .error .tooDeep
  else
    match readings.filterMap (defect? config) with
    | [] => .ok (readings.filterMap value?)
    | ds => .error (.defects k.recordName ds)

def text (s : Settings) (key : String) : String :=
  match s.lookup key with
  | some (.text t) => t
  | _ => ""

def flag (s : Settings) (key : String) : Bool :=
  match s.lookup key with
  | some (.flag b) => b
  | _ => false

def list (s : Settings) (key : String) : List String :=
  match s.lookup key with
  | some (.list ts) => ts
  | _ => []

end Settings

inductive Archive where
  | tarGz
  | zip
  deriving DecidableEq, Repr

inductive InitSystem where
  | sysv
  | systemd
  deriving DecidableEq, Repr

inductive Action where
  | mkdir (path : String)
  | copy (src dest : String) (overwrite : Bool) (mode : String)
  | chmod (path mode : String)
  | chown (path owner group : String)
  | extract (archive : Archive) (src dest creates : String)
  | rpmInstall (rpms : List String) (mode : String) (nodeps : Bool)
  | appendLines (file : String) (lines : List String) (unique backup : Bool)
  | deleteLines (file pattern mode : String) (backup : Bool)
  | replace (file pattern replacement mode : String) (backup : Bool)
  | runCmd (cmd cwd : String)
  | service (init : InitSystem) (src name : String) (start : Bool)
  | autoService (name sysvSrc systemdSrc : String) (start : Bool)
  deriving DecidableEq, Repr

namespace Action

def ofSettings (s : Settings) : Kind → Action
  | .mkdir => mkdir (s.text "path")
  | .copy => copy (s.text "src") (s.text "dest") (s.flag "overwrite") (s.text "mode")
  | .chmod => chmod (s.text "path") (s.text "mode")
  | .chown => chown (s.text "path") (s.text "owner") (s.text "group")
  | .extractTarGz => extract .tarGz (s.text "src") (s.text "dest") (s.text "creates")
  | .extractZip => extract .zip (s.text "src") (s.text "dest") (s.text "creates")
  | .rpmInstall => rpmInstall (s.list "rpms") (s.text "mode") (s.flag "nodeps")
  | .appendLines =>
    appendLines (s.text "file") (s.list "lines") (s.flag "unique") (s.flag "backup")
  | .deleteLines =>
    deleteLines (s.text "file") (s.text "match") (s.text "mode") (s.flag "backup")
  | .replace =>
    replace (s.text "file") (s.text "pattern") (s.text "replacement") (s.text "mode")
      (s.flag "backup")
  | .runCmd => runCmd (s.text "cmd") (s.text "cwd")
  | .serviceSysv => service .sysv (s.text "src") (s.text "name") (s.flag "start")
  | .serviceSystemd => service .systemd (s.text "src") (s.text "name") (s.flag "start")
  | .autoService =>
    autoService (s.text "name") (s.text "sysv_src") (s.text "systemd_src") (s.flag "start")

def read (k : Kind) (config : Members) (room : Room := .standard) : Except SettingsFault Action :=
  (Settings.read k config room).map fun s => ofSettings s k

end Action

end Provision
