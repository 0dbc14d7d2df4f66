import Provision.Disk.Path
import Provision.Text.Blank

/-! # Names of bundles

A bundle is named for its project. The name is reduced to letters, digits, dots, dashes and
underscores, so that it is one name in the directory for exports whatever the project is called. -/

namespace Provision.Bundle

def isSafe (c : Char) : Bool :=
  c.isAlphanum || c = '.' || c = '_' || c = '-'

/-- Every run of other characters becomes one underscore. `inRun` tells that one has begun. -/
def reduceFrom (inRun : Bool) : List Char → List Char
  | [] => []
  | c :: cs =>
    if isSafe c then c :: reduceFrom false cs
    else if inRun then reduceFrom true cs
    else '_' :: reduceFrom true cs

def isEdge (c : Char) : Bool :=
  c = '.' || c = '_'

/-- The reduced name, without dots and underscores at its ends. -/
def safeName (name : String) : String :=
  match Text.strip isEdge (reduceFrom false name.toList) with
  | [] => "project"
  | cs => String.ofList cs

def defaultDir (root : Path) (name : String) : Path :=
  root.child ("bundle_" ++ safeName name)

end Provision.Bundle
