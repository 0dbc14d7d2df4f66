import Provision.Step.Kind
import Provision.Step.Setting

/-! # Checking steps

Each step is checked on its own: the settings its kind requires, the mode where the kind has
modes, and advice. Findings come in the order of the steps. -/

namespace Provision

def Step.kind? (s : Step) : Option Kind :=
  Kind.ofName? s.type

namespace Check

def modeMessage : Kind → String
  | .rpmInstall => "mode must be upgrade or install"
  | _ => "mode must be fixed or regex"

/-- Whether a required setting is absent or has an empty text. To report one takes a call, as a text does. -/
def isUnset (config : Members) (key : String) (room : Room := .standard) : Except TextFault Bool :=
  (((config.get? key).getD .null).text room.checks).map (· == "")

/-- The required settings that are not set. -/
def unset (config : Members) (keys : List String) (room : Room := .standard) :
    Except TextFault (List String) :=
  match keys with
  | [] => .ok []
  | key :: keys => do
    let missing ← isUnset config key room
    let rest ← unset config keys room
    return if missing then key :: rest else rest

/-- Whether the mode is none of those a kind accepts. An absent mode counts as empty. -/
def hasBadMode (k : Kind) (config : Members) (room : Room := .standard) : Except TextFault Bool :=
  if k.modes.isEmpty then .ok false
  else
    (((config.get? "mode").getD .null).text room.checks).map fun m =>
      !k.modes.contains (Text.lower m)

def createsUnset : String := "creates is not set; idempotency may be improved"

def backupDisabled : String := "backup is disabled; risk of data loss"

def cwdUnset : String := "cwd is not set; command will run from script directory"

/-- Advice about settings that are allowed but risky. -/
def advice (k : Kind) (config : Members) : List String :=
  match k with
  | .extractTarGz | .extractZip => if config.has "creates" then [] else [createsUnset]
  | .appendLines | .deleteLines | .replace =>
    match config.get? "backup" with
    | none => []
    | some v => if v.flag false then [] else [backupDisabled]
  | .runCmd => if config.has "cwd" then [] else [cwdUnset]
  | _ => []

def unknownType (type : String) : String :=
  "unknown step type " ++ type

def required (key : String) : String :=
  key ++ " is required"

def step (s : Step) (room : Room := .standard) : Except TextFault (List Issue) :=
  match s.kind? with
  | none => .ok [⟨.warn, s.id, unknownType s.type⟩]
  | some k => do
    let missing ← unset s.config k.required room
    let badMode ← hasBadMode k s.config room
    return missing.map (⟨.error, s.id, required ·⟩) ++
      (if badMode then [⟨.error, s.id, modeMessage k⟩] else []) ++
      (advice k s.config).map (⟨.warn, s.id, ·⟩)

def steps (ss : List Step) (room : Room := .standard) : Except TextFault (List Issue) :=
  match ss with
  | [] => .ok []
  | s :: rest => do
    let here ← step s room
    let later ← steps rest room
    return here ++ later

def recipe (r : Recipe) (room : Room := .standard) : Except TextFault (List Issue) :=
  steps r.steps room

end Check

end Provision
