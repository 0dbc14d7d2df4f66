import Provision.Json.Basic

/-! # Kinds of steps

The step types that can be compiled, their names in recipes, and what each declares about its
settings. -/

namespace Provision

inductive Kind where
  | mkdir
  | copy
  | chmod
  | chown
  | extractTarGz
  | extractZip
  | rpmInstall
  | appendLines
  | deleteLines
  | replace
  | runCmd
  | serviceSysv
  | serviceSystemd
  | autoService
  deriving DecidableEq, Repr

/-- What a setting is wanted as. -/
inductive Form where
  | text
  | flag (default : Bool)
  | words
  | lines
  deriving DecidableEq, Repr

/-- How many calls may be made inside each other: where a document is read, where a setting is checked, and where it
is put into a form. -/
structure Room where
  reading : Nat
  checks : Nat
  forms : Form → Nat

abbrev Room.standard : Room := ⟨Json.freeCalls, Json.freeCalls, fun _ => Json.freeCalls⟩

namespace Kind

/-- All kinds, in the order of their names. -/
def all : List Kind :=
  [appendLines, autoService, chmod, chown, copy, deleteLines, extractTarGz, extractZip, mkdir,
    replace, rpmInstall, runCmd, serviceSystemd, serviceSysv]

def name : Kind → String
  | mkdir => "mkdir"
  | copy => "copy"
  | chmod => "chmod"
  | chown => "chown"
  | extractTarGz => "extract_tar_gz"
  | extractZip => "extract_zip"
  | rpmInstall => "rpm_install"
  | appendLines => "append_lines"
  | deleteLines => "delete_lines"
  | replace => "replace"
  | runCmd => "run_cmd"
  | serviceSysv => "service_sysv"
  | serviceSystemd => "service_systemd"
  | autoService => "auto_service"

def ofName? (s : String) : Option Kind :=
  all.find? (·.name == s)

/-- The names of all kinds, sorted. -/
def names : List String :=
  all.map name

/-- The name of a kind's record of settings in reports. -/
def recordName : Kind → String
  | mkdir => "MkdirConfig"
  | copy => "CopyConfig"
  | chmod => "ChmodConfig"
  | chown => "ChownConfig"
  | extractTarGz | extractZip => "ExtractConfig"
  | rpmInstall => "RpmInstallConfig"
  | appendLines => "AppendLinesConfig"
  | deleteLines => "DeleteLinesConfig"
  | replace => "ReplaceConfig"
  | runCmd => "RunCmdConfig"
  | serviceSysv | serviceSystemd => "ServiceConfig"
  | autoService => "AutoServiceConfig"

/-- The settings a kind declares; all others are ignored. -/
def settings : Kind → List (String × Form)
  | mkdir => [("path", .text)]
  | copy => [("src", .text), ("dest", .text), ("overwrite", .flag false), ("mode", .text)]
  | chmod => [("path", .text), ("mode", .text)]
  | chown => [("path", .text), ("owner", .text), ("group", .text)]
  | extractTarGz | extractZip => [("src", .text), ("dest", .text), ("creates", .text)]
  | rpmInstall => [("rpms", .words), ("mode", .text), ("nodeps", .flag false)]
  | appendLines =>
    [("file", .text), ("lines", .lines), ("unique", .flag false), ("backup", .flag true)]
  | deleteLines => [("file", .text), ("match", .text), ("mode", .text), ("backup", .flag true)]
  | replace =>
    [("file", .text), ("pattern", .text), ("replacement", .text), ("mode", .text),
      ("backup", .flag true)]
  | runCmd => [("cmd", .text), ("cwd", .text)]
  | serviceSysv | serviceSystemd => [("src", .text), ("name", .text), ("start", .flag true)]
  | autoService =>
    [("name", .text), ("sysv_src", .text), ("systemd_src", .text), ("start", .flag true)]

/-- The settings without which a step of the kind is in error. -/
def required : Kind → List String
  | mkdir => ["path"]
  | copy => ["src", "dest"]
  | chmod => ["path", "mode"]
  | chown => ["path", "owner"]
  | extractTarGz | extractZip => ["src", "dest"]
  | rpmInstall => ["rpms", "mode"]
  | appendLines => ["file", "lines"]
  | deleteLines => ["file", "match", "mode"]
  | replace => ["file", "pattern", "replacement", "mode"]
  | runCmd => ["cmd"]
  | serviceSysv | serviceSystemd => ["src", "name"]
  | autoService => ["name", "sysv_src", "systemd_src"]

/-- The modes a kind accepts, where it has modes. -/
def modes : Kind → List String
  | rpmInstall => ["upgrade", "install"]
  | deleteLines | replace => ["fixed", "regex"]
  | _ => []

/-- The commands the shell block of a kind runs on the target. -/
def commands : Kind → List String
  | extractZip => ["unzip"]
  | extractTarGz => ["tar"]
  | rpmInstall => ["rpm"]
  | appendLines | deleteLines | replace => ["sed", "grep"]
  | serviceSystemd | autoService => ["systemctl"]
  | serviceSysv => ["chkconfig"]
  | _ => []

end Kind

end Provision
