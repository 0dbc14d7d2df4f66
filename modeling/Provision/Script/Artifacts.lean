import Provision.Recipe.Decode
import Provision.Script.Installer
import Provision.Script.Readme

/-! # Artifacts of a recipe

`Artifacts.ofRecipe` compiles a recipe into the script, the notes and the canonical recipe text.
Findings are attached and never stop it: whether errors block an export is the caller's choice. -/

namespace Provision

structure Artifacts where
  installSh : String
  readme : String
  recipeJson : String
  issues : List Issue
  deriving Repr

/-- Why a recipe cannot be compiled. A value without a text is found either by the checks, which
do not say where it stands, or when the script is written. -/
inductive CompileFault where
  | unreadable (fault : TextFault)
  | settings (project : String) (record : String) (defects : List Defect)
  | unwritable (project : String) (fault : WriteFault)

namespace CompileFault

/-- The report of a fault that belongs to compiling; an unreadable value has none. -/
def report? : CompileFault → Option String
  | unreadable _ => none
  | settings project record ds =>
    some ("Cannot compile recipe '" ++ project ++ "': " ++ defectReport record ds)
  | unwritable project fault =>
    some ("Cannot serialize recipe '" ++ project ++ "': " ++ fault.message)

def ofSettings (project : String) : SettingsFault → CompileFault
  | .tooDeep => unreadable .tooDeep
  | .defects record ds => settings project record ds

end CompileFault

namespace Artifacts

def checked (r : Recipe) (room : Room := .standard) : Except CompileFault (List Issue) :=
  (Check.recipe r room).mapError .unreadable

def script (r : Recipe) (generatedAt : Moment) (room : Room := .standard) :
    Except CompileFault String :=
  (Installer.script r generatedAt room).mapError (.ofSettings r.project.name)

def canonical (r : Recipe) : Except CompileFault String :=
  r.canonical.mapError (.unwritable r.project.name)

def ofRecipe (r : Recipe) (generatedAt : Moment) (room : Room := .standard) :
    Except CompileFault Artifacts := do
  let issues ← checked r room
  let installSh ← script r generatedAt room
  let recipeJson ← canonical r
  return { installSh, readme := Provision.readme r.project, recipeJson, issues }

def wire (a : Artifacts) : Json :=
  .obj [("installSh", .str a.installSh), ("readme", .str a.readme),
    ("recipeJsonPretty", .str a.recipeJson), ("issues", .arr (a.issues.map Issue.wire))]

open Decode in
def ofJson : Json → Checked Artifacts :=
  record "RenderResult" fun ms =>
    Artifacts.mk <$> required ms "installSh" "install_sh" string
      <*> required ms "readme" "readme" string
      <*> required ms "recipeJsonPretty" "recipe_json_pretty" string
      <*> field ms "issues" [] (list Issue.ofJson)

end Artifacts

end Provision
