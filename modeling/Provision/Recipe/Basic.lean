import Provision.Json.Basic
import Provision.Timestamp

/-! # Recipes

A recipe describes an installation: the project it belongs to, shell variables and an ordered list
of steps. A step's settings are dynamic values whose meaning depends on its type. -/

namespace Provision

structure Project where
  id : String := ""
  name : String := ""
  description : String := ""
  target : List String := []
  deriving DecidableEq, Repr, Inhabited

structure Step where
  id : String := ""
  name : String := ""
  type : String := ""
  config : Members := []
  deriving Inhabited

structure Recipe where
  schemaVersion : String
  project : Project
  vars : List (String × String)
  steps : List Step
  updatedAt : Timestamp
  deriving Inhabited

/-- Errors block an export, warnings never do. -/
inductive Level where
  | error
  | warn
  deriving DecidableEq, Repr

def Level.text : Level → String
  | .error => "error"
  | .warn => "warn"

/-- A finding about a step. -/
structure Issue where
  level : Level
  stepId : String
  message : String
  deriving DecidableEq, Repr

def Issue.blocking (i : Issue) : Bool :=
  i.level == .error

def hasErrors (issues : List Issue) : Bool :=
  issues.any Issue.blocking

/-- The step as a reader of a report names it. -/
def Issue.label (i : Issue) : String :=
  if i.stepId == "" then "-" else i.stepId

namespace Recipe

def currentSchema : String := "1.0"

def defaultTargets : List String := ["oracle_linux_6_9", "kylinsec_3_4"]

def defaultInstallRoot : String := "/opt/demo"

def defaultLogDir : String := "/var/log/asg"

/-- What a new project starts with. -/
def starter (id name : String) (now : Timestamp) : Recipe where
  schemaVersion := currentSchema
  project := { id, name, target := defaultTargets }
  vars := [("INSTALL_ROOT", defaultInstallRoot), ("LOG_DIR", defaultLogDir)]
  steps := []
  updatedAt := now

end Recipe

end Provision
