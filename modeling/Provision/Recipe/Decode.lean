import Provision.Recipe.Basic
import Provision.Recipe.Defect

/-! # Reading records from JSON

Unknown keys are ignored, absent ones take their defaults, and nothing is converted: a string is
a string. Only collections may be given as `null`, which then stands for an empty one. -/

namespace Provision

namespace Decode

def string : Json → Checked String
  | .str s => .ok s
  | v => .fail .notString v

/-- The items of a list, each read at its index. -/
def items {α : Type} (read : Json → Checked α) : Nat → List Json → Checked (List α)
  | _, [] => .ok []
  | i, v :: vs => List.cons <$> (read v).under (.index i) <*> items read (i + 1) vs

def list {α : Type} (read : Json → Checked α) : Json → Checked (List α)
  | .arr vs => items read 0 vs
  | v => .fail .notList v

def entries {α : Type} (read : Json → Checked α) : Members → Checked (List (String × α))
  | [] => .ok []
  | (k, v) :: ms => (fun a rest => (k, a) :: rest) <$> (read v).under (.key k) <*> entries read ms

def object {α : Type} (read : Json → Checked α) : Json → Checked (List (String × α))
  | .obj ms => entries read ms
  | v => .fail .notObject v

/-- Reads `null` as an empty collection. -/
def orEmpty {α : Type} (read : Json → Checked (List α)) : Json → Checked (List α)
  | .null => .ok []
  | v => read v

/-- An optional member. -/
def field {α : Type} (ms : Members) (key : String) (default : α) (read : Json → Checked α) :
    Checked α :=
  match ms.get? key with
  | none => .ok default
  | some v => (read v).under (.key key)

/-- A member with a wire name and a second name, which counts only without the first. -/
def renamed? (ms : Members) (wire other : String) : Option (String × Json) :=
  match ms.get? wire with
  | some v => some (wire, v)
  | none => (ms.get? other).map (other, ·)

def renamed {α : Type} (ms : Members) (wire other : String) (default : α)
    (read : Json → Checked α) : Checked α :=
  match renamed? ms wire other with
  | none => .ok default
  | some (key, v) => (read v).under (.key key)

def required {α : Type} (ms : Members) (wire other : String) (read : Json → Checked α) :
    Checked α :=
  match renamed? ms wire other with
  | none => (Checked.fail .missing (.obj ms)).under (.key wire)
  | some (key, v) => (read v).under (.key key)

def record {α : Type} (name : String) (read : Members → Checked α) : Json → Checked α
  | .obj ms => read ms
  | v => .fail (.notRecord name) v

def moment : Json → Checked Timestamp
  | .str s => judge (.str s) (Timestamp.read s) .unreadableMoment
  | .int n => judge (.int n) (Timestamp.ofUnix n) .impossibleMoment
  | .float x => judge (.float x) (Timestamp.ofFloat x) .impossibleMoment
  | v => .fail .notMoment v
where
  judge (v : Json) (r : Timestamp.Reading) (malformed : Complaint) : Checked Timestamp :=
    match r with
    | .ok t => .ok t
    | .yearZero => .fail .impossibleMoment v
    | .malformed => .fail malformed v

def severity : Json → Checked Level
  | .str "error" => .ok .error
  | .str "warn" => .ok .warn
  | v => .fail .notLevel v

/-- Settings are kept as they are. -/
def raw (v : Json) : Checked Json := .ok v

end Decode

open Decode

def Project.ofJson : Json → Checked Project :=
  record "ProjectMeta" fun ms =>
    Project.mk <$> field ms "id" "" string <*> field ms "name" "" string
      <*> field ms "description" "" string <*> field ms "target" [] (orEmpty (list string))

def Step.ofJson : Json → Checked Step :=
  record "Step" fun ms =>
    Step.mk <$> field ms "id" "" string <*> field ms "name" "" string
      <*> field ms "type" "" string <*> field ms "config" [] (orEmpty (object raw))

/-- `now` dates recipes that carry no date. -/
def Recipe.ofJson (now : Timestamp) : Json → Checked Recipe :=
  record "Recipe" fun ms =>
    Recipe.mk <$> field ms "schema_version" Recipe.currentSchema string
      <*> field ms "project" {} Project.ofJson
      <*> field ms "vars" [] (orEmpty (object string))
      <*> field ms "steps" [] (orEmpty (list Step.ofJson))
      <*> renamed ms "updatedAt" "updated_at" now moment

def Issue.ofJson : Json → Checked Issue :=
  record "Issue" fun ms =>
    Issue.mk <$> required ms "level" "level" severity
      <*> renamed ms "stepId" "step_id" "" string
      <*> required ms "message" "message" string

end Provision
