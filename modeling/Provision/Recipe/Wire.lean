import Provision.Json.Printer
import Provision.Recipe.Basic

/-! # The wire form of records

`Recipe.wire` is the JSON form of a recipe and `Recipe.canonical` its canonical text: fields in
their declared order, variables in the author's order, settings in the order of their keys. -/

namespace Provision

/-- Why a value cannot be written. -/
inductive WriteFault where
  | tooDeep
  | tooManyDigits
  deriving DecidableEq, Repr

def WriteFault.message : WriteFault → String
  | .tooDeep => "Maximum serialization depth exceeded"
  | .tooManyDigits =>
    "Exceeds the limit (4300 digits) for integer string conversion; " ++
      "use sys.set_int_max_str_digits() to increase the limit"

/-- A setting may hold so many values inside each other, itself included. -/
def nestingLimit : Nat := 255

def Project.wire (p : Project) : Json :=
  .obj [("id", .str p.id), ("name", .str p.name), ("description", .str p.description),
    ("target", .arr (p.target.map .str))]

def Issue.wire (i : Issue) : Json :=
  .obj [("level", .str i.level.text), ("stepId", .str i.stepId), ("message", .str i.message)]

/-- The wire form of a step with the given settings. -/
def Step.wireWith (s : Step) (config : Members) : Json :=
  .obj [("id", .str s.id), ("name", .str s.name), ("type", .str s.type), ("config", .obj config)]

def Step.nestsTooDeep (s : Step) : Bool :=
  s.config.any fun m => nestingLimit < m.2.height

def Step.wire (s : Step) : Except WriteFault Json :=
  if s.nestsTooDeep then .error .tooDeep else .ok (s.wireWith (Json.finiteMembers s.config))

/-- The wire form of a recipe with the settings of every step in the order that `order` gives. -/
def Recipe.wireWith (order : Members → Members) (r : Recipe) : Except WriteFault Json :=
  if r.steps.any Step.nestsTooDeep then .error .tooDeep
  else .ok (.obj [
    ("schema_version", .str r.schemaVersion),
    ("project", r.project.wire),
    ("vars", .obj (r.vars.map fun (k, v) => (k, .str v))),
    ("steps", .arr (r.steps.map fun s => s.wireWith (order (Json.finiteMembers s.config)))),
    ("updatedAt", .str r.updatedAt.text)])

def Recipe.wire (r : Recipe) : Except WriteFault Json :=
  r.wireWith id

/-- The text of a recipe for storage, bundles and comparison. -/
def Recipe.canonical (r : Recipe) : Except WriteFault String := do
  let json ← r.wireWith sortByKey
  if json.writable then .ok (json.toPretty .unicode) else .error .tooManyDigits

end Provision
