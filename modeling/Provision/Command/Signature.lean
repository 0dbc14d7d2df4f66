import Provision.Bundle.Export
import Provision.Command.Line

/-! # The commands

What every command takes, and the words with which its usage is shown. -/

namespace Provision.Command

inductive Name where
  | main
  | validate
  | render
  | web
  | projects
  | list
  | create
  | «show»
  | «export»
  deriving DecidableEq, Repr

namespace Name

/-- The commands of a group by their names. -/
def members : Name → List (String × Name)
  | main => [("validate", validate), ("render", render), ("web", web), ("projects", projects)]
  | projects => [("list", list), ("create", create), ("show", «show»), ("export", «export»)]
  | _ => []

/-- The words that lead to a command. -/
def words : Name → String
  | main => "cli"
  | validate => "cli validate"
  | render => "cli render"
  | web => "cli web"
  | projects => "cli projects"
  | list => "cli projects list"
  | create => "cli projects create"
  | «show» => "cli projects show"
  | «export» => "cli projects export"

def help : Opt := ⟨"help", ["--help"], none⟩

def json : Opt := ⟨"json", ["--json-output", "--json"], none⟩

def out : Opt := ⟨"out", ["--out", "-o"], some .directory⟩

def recipeFile : Argument := ⟨"RECIPE_FILE", .path⟩

def projectId : Argument := ⟨"PROJECT_ID", .text⟩

def signature : Name → Signature
  | main =>
    { options :=
        [⟨"version", ["--version"], none⟩, ⟨"verbose", ["--verbose", "-v"], none⟩,
          ⟨"quiet", ["--quiet", "-q"], none⟩, ⟨"debug", ["--debug"], none⟩,
          ⟨"config", ["--config", "-c"], some .path⟩, help],
      isGroup := true }
  | projects => { options := [help], isGroup := true }
  | validate => { options := [json, help], arguments := [recipeFile] }
  | render => { options := [out, json, help], arguments := [recipeFile] }
  | web =>
    { options :=
        [⟨"host", ["--host"], some .text⟩, ⟨"port", ["--port", "-p"], some .integer⟩, help] }
  | list => { options := [json, help] }
  | create =>
    { options :=
        [⟨"description", ["--description", "-d"], some .text⟩,
          ⟨"target", ["--target", "-t"], some .text⟩, json, help],
      arguments := [⟨"NAME", .text⟩] }
  | «show» => { options := [help], arguments := [projectId] }
  | «export» =>
    { options :=
        [out, ⟨"format", ["--format"], some (.oneOf (Bundle.Format.all.map Bundle.Format.name))⟩,
          json, help],
      arguments := [projectId] }

/-- The line that shows how a command is used. -/
def usage (n : Name) : String :=
  let s := n.signature
  "Usage: " ++ " ".intercalate
    ([n.words, "[OPTIONS]"] ++ s.arguments.map Argument.name ++
      (if s.isGroup then ["COMMAND", "[ARGS]..."] else [])) ++ "\n"

/-- A fault of usage as it is reported. -/
def report (n : Name) (f : UsageFault) : String :=
  (if f.hasUsage then n.usage ++ "Try '" ++ n.words ++ " --help' for help.\n\n" else "") ++
    "Error: " ++ f.message ++ "\n"

end Name

end Provision.Command
