import Provision.Failure

/-! # Saving a recipe

A save goes through stages, each of which is one effect on the disk: the project's directories are
made, a temporary file is made and filled beside the recipe, and is moved over it. Whatever goes
wrong once the temporary file is there takes it away again. The stages are separate so that several
saves can be thought of side by side, and each stopped anywhere. -/

namespace Provision

/-- What is to be saved: the directory of the project, and the text of its recipe. -/
structure Save where
  dir : Path
  text : Except WriteFault String

namespace Save

def recipeFile : String := "recipe.json"

def assetsDir : String := "assets"

def target (s : Save) : Path :=
  s.dir.child recipeFile

inductive Stage where
  | start
  | prepared
  | reserved (temp : Path)
  | filled (temp : Path)
  | broken (temp : Path) (cause : DiskFault)
  | finished (result : Except Failure Unit)

def failed (s : Save) (cause : DiskFault) : Failure :=
  .wrapping (.recipeNotWritten s.target) cause

/-- One effect. A fault of the first is not one of writing the recipe. -/
def step (s : Save) (stage : Stage) (troubles : Disk.Troubles := .none) : StateM Disk Stage :=
  match stage with
  | .start => do
    match ← (Disk.makeDirs (s.dir.child assetsDir) troubles).run with
    | .ok () => return .prepared
    | .error f => return .finished (.error (.disk f))
  | .prepared => do
    match s.text with
    | .error f => return .finished (.error (.write f))
    | .ok _ =>
      match ← (Disk.createTemp s.dir troubles).run with
      | .ok temp => return .reserved temp
      | .error f => return .finished (.error (s.failed f))
  | .reserved temp => do
    match s.text with
    | .error f => return .finished (.error (.write f))
    | .ok text =>
      match ← (Disk.writeText temp text troubles).run with
      | .ok () => return .filled temp
      | .error f => return .broken temp f
  | .filled temp => do
    match ← (Disk.rename temp s.target troubles).run with
    | .ok () => return .finished (.ok ())
    | .error f => return .broken temp f
  | .broken temp f => do
    match ← (Disk.unlink temp troubles).run with
    | .ok () => return .finished (.error (s.failed f))
    | .error g => return .finished (.error (s.failed g))
  | .finished r => return .finished r

/-- A save has at most so many stages. -/
def stages : Nat := 5

def advance (s : Save) (n : Nat) (stage : Stage) (troubles : Disk.Troubles := .none) :
    StateM Disk Stage :=
  match n with
  | 0 => return stage
  | n + 1 => do s.advance n (← s.step stage troubles) troubles

/-- A save from its first stage to its last. -/
def run (s : Save) (troubles : Disk.Troubles := .none) : StateM Disk (Except Failure Unit) := do
  match ← s.advance stages .start troubles with
  | .finished r => return r
  | _ => return .ok ()

end Save

end Provision
