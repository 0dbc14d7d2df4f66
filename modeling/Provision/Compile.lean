import Provision.Failure
import Provision.Workspace

/-! # Checking and compiling, with a log

The checks and the compilation of recipes in a workspace: they change nothing but the log. -/

namespace Provision.Compile

def checkLog : String := "installforge.core.services.validator"

def scriptLog : String := "installforge.core.services.generators.install_script"

def compileLog : String := "installforge.core.services.render"

def count (n : Nat) : String :=
  Decimal.intText n

def checkedRecord (r : Recipe) (issues : List Issue) : Log.Record where
  severity := .debug
  source := checkLog
  message := "Validated recipe '" ++ r.project.name ++ "': " ++ count r.steps.length ++
    " steps, " ++ count issues.length ++ " issues"

def skippedRecord (name : String) : Log.Record where
  severity := .warning
  source := scriptLog
  message := "Skipping recipe var with invalid shell name: " ++ quoted name

def scriptRecord (r : Recipe) (fs : List (Step × Fragment)) : Log.Record where
  severity := .debug
  source := scriptLog
  message := "Generated install.sh: " ++ count r.steps.length ++ " steps, preflight=[" ++
    ", ".intercalate ((Installer.commands fs).map quoted) ++ "]"

def compiledRecord (r : Recipe) (issues : List Issue) : Log.Record where
  severity := .info
  source := compileLog
  message := "Rendered recipe '" ++ r.project.name ++ "' (" ++ count r.steps.length ++
    " steps, " ++ count issues.length ++ " issues)"

/-- The records of a compilation, as far as it gets. -/
def records (r : Recipe) (room : Room := .standard) : List Log.Record :=
  match Check.recipe r room with
  | .error _ => []
  | .ok issues =>
    checkedRecord r issues ::
      match Installer.fragments r.steps room with
      | .error _ => []
      | .ok fs =>
        (Installer.skippedVars r.vars).map skippedRecord ++ scriptRecord r fs ::
          match r.canonical with
          | .error _ => []
          | .ok _ => [compiledRecord r issues]

def emitAll (rs : List Log.Record) : WorkM Failure Unit :=
  modify fun w => rs.foldl (fun w r => w.emit r) w

/-- The findings about a recipe. -/
def check (r : Recipe) (room : Room := .standard) : WorkM Failure (List Issue) := do
  match Check.recipe r room with
  | .error f => throw (.compile (.unreadable f))
  | .ok issues =>
    emitAll [checkedRecord r issues]
    return issues

/-- Compiles a recipe, with the present time in the script unless another is given. -/
def compile (r : Recipe) (generatedAt : Option Moment) (room : Room := .standard) :
    WorkM Failure Artifacts := do
  emitAll (records r room)
  match Artifacts.ofRecipe r (generatedAt.getD (.ofTimestamp (← WorkM.now))) room with
  | .ok a => return a
  | .error f => throw (.compile f)

end Provision.Compile
