import Provision.Step.Check

/-! # Commands a script needs

The commands that the blocks of a recipe's steps run on the target are inferred from the step
types and checked before the first step. -/

namespace Provision.Preflight

/-- Texts in rising order, each once. -/
def sortedSet (xs : List String) : List String :=
  (xs.mergeSort fun a b => decide (a ≤ b)).eraseDups

/-- The commands of a step type; none for an unknown type. -/
def commandsFor (type : String) : List String :=
  ((Kind.ofName? type).map Kind.commands).getD []

def requiredCommands (steps : List Step) : List String :=
  sortedSet (steps.flatMap fun s => commandsFor s.type)

def test (command : String) : List String :=
  ["if ! command -v " ++ command ++ " >/dev/null 2>&1; then",
    "  missing+=(\"" ++ command ++ "\")",
    "fi"]

/-- The block that tests for commands and aborts with the list of the missing ones. -/
def block (commands : List String) : String :=
  "\n".intercalate
    (["# Preflight checks", "missing=()"] ++ commands.flatMap test ++
      ["if [ $\x7b#missing[@]\x7d -ne 0 ]; then",
        "  echo \"Missing required commands: $\x7bmissing[*]\x7d\" >&2",
        "  exit 1",
        "fi"]) ++ "\n"

end Provision.Preflight
