import Provision.Disk.Basic
import Provision.Recipe.Defect

/-! # Faults of the store

What operations on stored projects report: names that are refused, what is not there, recipes that
cannot be read, and calls the system refuses while something is written. -/

namespace Provision

inductive StoreFault where
  | invalidName (name : String)
  | noProjectId
  | recipeNotFound (path : Path)
  | assetsNotFound (project : String)
  | unreadable (path : Path) (cause : DiskFault)
  | malformed (path : Path)
  | invalid (path : Path) (defects : List Defect)
  | recipeNotWritten (path : Path) (cause : DiskFault)
  | assetNotWritten (path : Path) (cause : DiskFault)
  | bundleNotWritten (path : Path) (cause : DiskFault)

namespace StoreFault

def isInvalidName : StoreFault → Bool
  | invalidName _ => true
  | _ => false

def isNotFound : StoreFault → Bool
  | recipeNotFound _ | assetsNotFound _ => true
  | _ => false

/-- The headline of a fault; defects of a recipe follow it in a full report. -/
def message : StoreFault → String
  | invalidName name => "invalid filename: " ++ quoted name
  | noProjectId => "recipe has no project id"
  | recipeNotFound path => "Recipe not found: " ++ path.text
  | assetsNotFound project => "No assets directory for project " ++ project
  | unreadable path cause => "Cannot read " ++ path.text ++ ": " ++ cause.message
  | malformed path => "Invalid JSON in " ++ path.text
  | invalid path defects =>
    "Invalid recipe in " ++ path.text ++ ": " ++ defectReport "Recipe" defects
  | recipeNotWritten path cause => "Cannot write " ++ path.text ++ ": " ++ cause.message
  | assetNotWritten path cause => "Cannot write asset " ++ path.text ++ ": " ++ cause.message
  | bundleNotWritten path cause => "Cannot write bundle to " ++ path.text ++ ": " ++ cause.message

end StoreFault

end Provision
