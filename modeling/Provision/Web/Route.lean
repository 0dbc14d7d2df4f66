import Provision.Web.Target

/-! # Routes

A path is cut at its slashes after it has been decoded, so an encoded slash cuts like any other. A
route takes a project's id from one piece. -/

namespace Provision.Web

inductive Route where
  | projects
  | project (id : String)
  | assets (id : String)
  | preview (id : String)
  | bundle (id : String)
  | validate
  | render
  /-- A file of the server's own; there are none. -/
  | staticFile
  deriving DecidableEq, Repr

/-- Slashes in a row become one. -/
def mergeSlashes : List Char → List Char
  | '/' :: '/' :: cs => mergeSlashes ('/' :: cs)
  | c :: cs => c :: mergeSlashes cs
  | [] => []

namespace Route

/-- A name of a file may have slashes, but none in front, and line feeds nowhere else. -/
def isFileName (pieces : List String) : Bool :=
  let name := ("/".intercalate pieces).toList
  name.head?.any (· ≠ '/') && !(name.drop 1).contains '\n'

def ofPieces? : List String → Option Route
  | ["", "api", "projects"] => some projects
  | ["", "api", "validate"] => some validate
  | ["", "api", "render"] => some render
  | ["", "api", "projects", id] => if id = "" then none else some (project id)
  | ["", "api", "projects", id, "assets"] => if id = "" then none else some (assets id)
  | ["", "api", "projects", id, "generate"] => if id = "" then none else some (preview id)
  | ["", "api", "projects", id, "export"] => if id = "" then none else some (bundle id)
  | "" :: "static" :: name => if isFileName name then some staticFile else none
  | _ => none

def ofPath? (path : List Char) : Option Route :=
  ofPieces? ((Text.pieces (· = '/') path).map String.ofList)

/-- The methods with a handler. -/
def methods : Route → List String
  | projects => ["GET", "POST"]
  | project _ => ["GET", "PUT"]
  | assets _ => ["GET", "POST"]
  | staticFile => ["GET"]
  | _ => ["POST"]

/-- Whether a method is known, with those that every route answers. -/
def allows (r : Route) (method : String) : Bool :=
  method = "OPTIONS" || r.methods.contains method ||
    (method = "HEAD" && r.methods.contains "GET")

end Route

/-- What a method and a target lead to. -/
inductive Destination where
  | route (r : Route)
  | wrongMethod
  /-- A route that is no socket. -/
  | noSocket
  /-- The path with its slashes merged. -/
  | elsewhere
  | nowhere
  deriving DecidableEq, Repr

/-- Where a route leads that is taken as it is or in another way. -/
def Route.destination (r : Route) (method : String) (isSocket : Bool) (taken : Destination) :
    Destination :=
  if !r.allows method then .wrongMethod else if isSocket then .noSocket else taken

def Target.destination (t : Target) (method : String) : Destination :=
  match Route.ofPath? t.path with
  | some r => r.destination method t.isSocket (.route r)
  | none =>
    let merged := mergeSlashes t.path
    match Route.ofPath? merged with
    | some r => if merged = t.path then .nowhere else r.destination method t.isSocket .elsewhere
    | none => .nowhere

end Provision.Web
