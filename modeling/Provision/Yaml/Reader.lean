import Provision.Yaml.Node
import Provision.Yaml.Scalar

/-! # Reading YAML

`Yaml.read` gives the one document of a text. Scalars get their values where they are met, while
collections are looked into one after the other in the order in which they are met, so a fault in an
outer collection comes before one further in. Mappings marked for merging put their entries before
those of the mapping they are merged into, which therefore win. -/

namespace Provision.Yaml

namespace Graph

def nodeAt (g : Graph) (id : NodeId) : Node :=
  g.getD id default

def tagAt (g : Graph) (id : NodeId) : Tag :=
  (g.nodeAt id).tag

/-- The entries of a node that is a mapping. -/
def entries? (g : Graph) (id : NodeId) : Option (List (NodeId × NodeId)) :=
  match (g.nodeAt id).shape with
  | .map entries => some entries
  | _ => none

def setEntries (g : Graph) (id : NodeId) (entries : List (NodeId × NodeId)) : Graph :=
  g.modify id fun n => { n with shape := .map entries }

/-- The text of a scalar, or of the value under an equals sign in a mapping. A mapping that leads
back to itself has no end. -/
def textWithin (g : Graph) : Nat → NodeId → Except Fault String
  | 0, _ => .error .tooDeep
  | fuel + 1, id =>
    match (g.nodeAt id).shape with
    | .scalar text => .ok text
    | .seq _ => .error .malformed
    | .map entries =>
      match entries.find? fun e => g.tagAt e.1 = .equals with
      | some (_, v) => textWithin g fuel v
      | none => .error .malformed

def text (g : Graph) (id : NodeId) : Except Fault String :=
  g.textWithin (g.size + 1) id

/-- Makes the equals signs among the keys into plain keys. -/
def withPlainKeys (g : Graph) (entries : List (NodeId × NodeId)) : Graph :=
  entries.foldl (fun g e =>
    if g.tagAt e.1 = .equals then g.modify e.1 ({ · with tag := .str }) else g) g

/-- How many entries there are to be merged. -/
def mergeCount (g : Graph) : Nat :=
  g.foldl (fun n node =>
    match node.shape with
    | .map entries => n + entries.countP fun e => g.tagAt e.1 = .merge
    | _ => n) 0

/-- The entries that several mappings bring, of which the first wins. -/
def broughtByItems (flatten : Graph → NodeId → Except Fault Graph) (g : Graph) :
    List NodeId → Except Fault (Graph × List (NodeId × NodeId))
  | [] => .ok (g, [])
  | item :: items => do
    if (g.entries? item).isNone then .error .malformed
    else
      let g ← flatten g item
      let brought := (g.entries? item).getD []
      let (g, more) ← broughtByItems flatten g items
      return (g, more ++ brought)

/-- The entries that a mapping brings, or a list of mappings. -/
def broughtBy (flatten : Graph → NodeId → Except Fault Graph) (g : Graph) (source : NodeId) :
    Except Fault (Graph × List (NodeId × NodeId)) :=
  match (g.nodeAt source).shape with
  | .scalar _ => .error .malformed
  | .map _ => broughtByItems flatten g [source]
  | .seq items => broughtByItems flatten g items

/-- Merges into a mapping what it asks for, one source after the other; `brought` is what has been
merged so far. A source is asked for once, so there are as many steps as sources. -/
def flattenFrom : Nat → List (NodeId × NodeId) → Graph → NodeId → Except Fault Graph
  | 0, _, _, _ => .error .malformed
  | fuel + 1, brought, g, id =>
    let entries := (g.entries? id).getD []
    match entries.find? fun e => g.tagAt e.1 = .merge with
    | none => .ok ((g.withPlainKeys entries).setEntries id (brought ++ entries))
    | some (_, source) => do
      let rest := entries.eraseP fun e => g.tagAt e.1 = .merge
      let (g, more) ← broughtBy (flattenFrom fuel []) (g.setEntries id rest) source
      flattenFrom fuel (brought ++ more) g id

end Graph

/-- The kind of collection that a tag asks for. -/
def Tag.collection? : Tag → Option Collection
  | .map => some .mapping
  | .set => some .set
  | .seq | .pairs => some .list
  | _ => none

structure Building where
  graph : Graph
  /-- The values of nodes that have been met. -/
  values : Array (Option Yaml)
  /-- Collections to be looked into, in the order in which they were met. -/
  waiting : Array NodeId := #[]

namespace Building

def ofGraph (graph : Graph) : Building where
  graph
  values := Array.replicate graph.size none

end Building

abbrev BuildM := StateT Building (Except Fault)

/-- The value of a node as it is met. A collection has to wait. -/
def meet (id : NodeId) : BuildM Yaml := do
  let b ← get
  match b.values.getD id none with
  | some v => return v
  | none =>
    let v ←
      match (b.graph.tagAt id).collection? with
      | some kind =>
        modify fun b => { b with waiting := b.waiting.push id }
        pure (.collection kind)
      | none => scalarValue b.graph id
    modify fun b => { b with values := b.values.setIfInBounds id (some v) }
    return v
where
  scalarValue (g : Graph) (id : NodeId) : Except Fault Yaml := do
    let t := g.tagAt id
    if [Tag.merge, .equals, .other].contains t then .error .malformed
    else
      let text ← g.text id
      if t = .timestamp && (g.entries? id).isSome then .error .timestampOfMapping
      else t.value text

def meetAll : List NodeId → BuildM Unit
  | [] => return
  | id :: ids => do
    let _ ← meet id
    meetAll ids

def meetEntries : List (NodeId × NodeId) → BuildM Entries
  | [] => return []
  | (k, n) :: rest => do
    let key ← meet k
    if !key.isKey then throw .malformed
    let v ← meet n
    return (key, v) :: (← meetEntries rest)

def mappingEntries (merges : Nat) (id : NodeId) : BuildM Entries := do
  let b ← get
  if (b.graph.entries? id).isNone then throw .malformed
  let g ← b.graph.flattenFrom (merges + 1) [] id
  set { b with graph := g }
  meetEntries ((g.entries? id).getD [])

/-- The items of a list of pairs: mappings with one entry each. -/
def meetPairs : List NodeId → BuildM Unit
  | [] => return
  | id :: ids => do
    match (← get).graph.entries? id with
    | some [(k, v)] => meetAll [k, v]
    | _ => throw .malformed
    meetPairs ids

def meetItems (id : NodeId) : BuildM Unit := do
  let n := (← get).graph.nodeAt id
  match n.shape with
  | .seq items => if n.tag = .pairs then meetPairs items else meetAll items
  | _ => throw .malformed

/-- Looks into a collection. Only a mapping has entries. -/
def lookInto (merges : Nat) (id : NodeId) : BuildM Entries := do
  match ((← get).graph.tagAt id).collection? with
  | some .list =>
    meetItems id
    return []
  | _ => mappingEntries merges id

/-- Looks into the collections that wait from the `i`th on. The first argument is as large as the
number of nodes. -/
def lookIntoFrom (merges : Nat) : Nat → Nat → BuildM Unit
  | 0, _ => return
  | fuel + 1, i => do
    match (← get).waiting[i]? with
    | none => return
    | some id =>
      let _ ← lookInto merges id
      lookIntoFrom merges fuel (i + 1)

/-- The document of which the first node is the whole. -/
def build : BuildM Document := do
  let g := (← get).graph
  let merges := g.mergeCount
  match ← meet 0 with
  | .collection .mapping =>
    let entries ← lookInto merges 0
    lookIntoFrom merges g.size 1
    return .mapping entries
  | v =>
    lookIntoFrom merges g.size 0
    return .value v

/-- The document of a text; an empty text holds `null`. -/
def read (text : String) : Except Fault Document := do
  let graph ← Graph.ofTokens (.ofText text)
  if graph.isEmpty then return .value .null
  else return (← build.run (.ofGraph graph)).1

end Provision.Yaml
