import Provision.Yaml.Tag
import Provision.Yaml.Token

/-! # YAML nodes

`Graph.ofTokens` reads the one document of a text as a graph of nodes with their tags. Nodes are
numbered in the order in which they begin, so the whole document is the first. An alias is the
number of the node it names, which may be a collection that the alias stands in. -/

namespace Provision.Yaml

abbrev NodeId := Nat

inductive Shape where
  | scalar (text : String)
  | seq (items : List NodeId)
  | map (entries : List (NodeId × NodeId))
  deriving Inhabited

structure Node where
  tag : Tag
  shape : Shape
  deriving Inhabited

abbrev Graph := Array Node

namespace Graph

structure Reading where
  tokens : Tokens
  nodes : Graph := #[]
  anchors : List (String × NodeId) := []
  handles : List (String × String) := []

abbrev ReadM := StateT Reading (Except Fault)

def malformed {α : Type} : ReadM α :=
  throw .malformed

/-- The next token, which may be where the text cannot be read any further. -/
def peek : ReadM (Option Token) := do
  match (← get).tokens with
  | ⟨t :: _, _⟩ => return some t
  | ⟨[], none⟩ => return none
  | ⟨[], some f⟩ => throw f

def advance : ReadM Unit :=
  modify fun r => { r with tokens := { r.tokens with ready := r.tokens.ready.tail } }

/-- Whether the next token is one of those given. -/
def isNext (ts : List Token) : ReadM Bool :=
  return (← peek).any ts.contains

/-- Takes the next token if it is the one given. -/
def take? (t : Token) : ReadM Bool := do
  if ← isNext [t] then
    advance
    return true
  else return false

def expect (t : Token) : ReadM Unit := do
  if !(← take? t) then malformed

structure Properties where
  anchor : Option String := none
  tag : Option String := none

def standardHandles : List (String × String) :=
  [("!", "!"), ("!!", Tag.core)]

def tagText (t : TagName) : ReadM String := do
  match t.handle with
  | none => return t.suffix
  | some h =>
    match ((← get).handles ++ standardHandles).lookup h with
    | some base => return base ++ t.suffix
    | none => malformed

def anchor? : ReadM (Option String) := do
  match ← peek with
  | some (.anchor name) =>
    advance
    return some name
  | _ => return none

def tag? : ReadM (Option TagName) := do
  match ← peek with
  | some (.tag t) =>
    advance
    return some t
  | _ => return none

/-- An anchor and a tag in any order. -/
def properties : ReadM Properties := do
  let first ← anchor?
  let tag ← tag?
  let anchor ← if first.isNone && tag.isSome then anchor? else pure first
  return ⟨anchor, ← tag.mapM tagText⟩

/-- A tag that says nothing about the type counts as none, but makes a scalar plain. -/
def Properties.isPlain (p : Properties) (plain : Bool) : Bool :=
  (plain && p.tag.isNone) || p.tag = some "!"

def Properties.tagOr (p : Properties) (fallback : Tag) : Tag :=
  match p.tag with
  | none | some "!" => fallback
  | some name => .ofName name

def Properties.scalarTag (p : Properties) (plain : Bool) (text : String) : Tag :=
  if p.isPlain plain then .ofPlain text else p.tagOr .str

def add (tag : Tag) (shape : Shape) : ReadM NodeId := do
  let id := (← get).nodes.size
  modify fun r => { r with nodes := r.nodes.push ⟨tag, shape⟩ }
  return id

/-- Adds a node under its anchor. Anchors are unique. -/
def declare (p : Properties) (tag : Tag) (shape : Shape) : ReadM NodeId := do
  match p.anchor with
  | none => add tag shape
  | some a =>
    if ((← get).anchors.lookup a).isSome then malformed
    let id ← add tag shape
    modify fun r => { r with anchors := (a, id) :: r.anchors }
    return id

/-- Gives a collection what was read inside it. -/
def fill (id : NodeId) (shape : Shape) : ReadM NodeId := do
  modify fun r => { r with nodes := r.nodes.modify id fun n => { n with shape } }
  return id

def sequence (p : Properties) (items : ReadM (List NodeId)) : ReadM NodeId := do
  let id ← declare p (p.tagOr .seq) (.seq [])
  fill id (.seq (← items))

def mapping (p : Properties) (entries : ReadM (List (NodeId × NodeId))) : ReadM NodeId := do
  let id ← declare p (p.tagOr .map) (.map [])
  fill id (.map (← entries))

def scalar (p : Properties) (plain : Bool) (text : String) : ReadM NodeId :=
  declare p (p.scalarTag plain text) (.scalar text)

/-- What stands where nothing is written. -/
def empty : ReadM NodeId :=
  add .null (.scalar "")

/-! ### The grammar -/

/-- Collections nest at most this deep. -/
def deepest : Nat := 480

/-- Where a node stands: in a flow, in a block, or in a block where a sequence needs no
indentation. -/
inductive Place where
  | flow
  | block
  | unindented
  deriving DecidableEq, Repr

/-- A separator before every item but the first. -/
def separated (isFirst : Bool) : ReadM Unit :=
  if isFirst then return else expect .separator

mutual

def node : Nat → Nat → Place → ReadM NodeId
  | 0, _, _ => malformed
  | fuel + 1, depth, place => do
    if deepest < depth then throw .tooDeep
    match ← peek with
    | some (.alias name) =>
      advance
      match (← get).anchors.lookup name with
      | some n => return n
      | none => malformed
    | _ =>
      let p ← properties
      content fuel (depth + 1) place p

def content : Nat → Nat → Place → Properties → ReadM NodeId
  | 0, _, _, _ => malformed
  | fuel + 1, depth, place, p => do
    match ← peek, place with
    | some .entry, .unindented => sequence p (unindentedItems fuel depth)
    | some (.scalar plain text), _ =>
      advance
      scalar p plain text
    | some .openSequence, _ =>
      advance
      sequence p (flowItems fuel depth true)
    | some .openMapping, _ =>
      advance
      mapping p (flowEntries fuel depth true)
    | some .blockSequence, .block | some .blockSequence, .unindented =>
      advance
      sequence p (blockItems fuel depth)
    | some .blockMapping, .block | some .blockMapping, .unindented =>
      advance
      mapping p (blockEntries fuel depth)
    | _, _ =>
      if p.anchor.isSome || p.tag.isSome then scalar p true "" else malformed

/-- A node, or nothing where one of the given tokens comes next. -/
def nodeUnless : Nat → Nat → Place → List Token → ReadM NodeId
  | 0, _, _, _ => malformed
  | fuel + 1, depth, place, ends => do
    if ← isNext ends then empty
    else node fuel depth place

def blockItems : Nat → Nat → ReadM (List NodeId)
  | 0, _ => malformed
  | fuel + 1, depth => do
    if ← take? .entry then
      let n ← nodeUnless fuel depth .block [.entry, .blockEnd]
      return n :: (← blockItems fuel depth)
    else
      expect .blockEnd
      return []

def unindentedItems : Nat → Nat → ReadM (List NodeId)
  | 0, _ => malformed
  | fuel + 1, depth => do
    if ← take? .entry then
      let n ← nodeUnless fuel depth .block [.entry, .key, .value, .blockEnd]
      return n :: (← unindentedItems fuel depth)
    else return []

def blockEntries : Nat → Nat → ReadM (List (NodeId × NodeId))
  | 0, _ => malformed
  | fuel + 1, depth => do
    if ← take? .key then
      let k ← nodeUnless fuel depth .unindented [.key, .value, .blockEnd]
      let v ←
        if ← take? .value then nodeUnless fuel depth .unindented [.key, .value, .blockEnd]
        else empty
      return (k, v) :: (← blockEntries fuel depth)
    else
      expect .blockEnd
      return []

def flowItems : Nat → Nat → Bool → ReadM (List NodeId)
  | 0, _, _ => malformed
  | fuel + 1, depth, isFirst => do
    if ← take? .closeSequence then return []
    else
      separated isFirst
      if ← take? .closeSequence then return []
      else
        let n ←
          if ← take? .key then mapping {} (flowPair fuel depth)
          else node fuel depth .flow
        return n :: (← flowItems fuel depth false)

/-- The one entry of a mapping without braces. -/
def flowPair : Nat → Nat → ReadM (List (NodeId × NodeId))
  | 0, _ => malformed
  | fuel + 1, depth => do
    let k ← nodeUnless fuel depth .flow [.value, .separator, .closeSequence]
    let v ←
      if ← take? .value then nodeUnless fuel depth .flow [.separator, .closeSequence]
      else empty
    return [(k, v)]

def flowEntries : Nat → Nat → Bool → ReadM (List (NodeId × NodeId))
  | 0, _, _ => malformed
  | fuel + 1, depth, isFirst => do
    if ← take? .closeMapping then return []
    else
      separated isFirst
      if ← take? .closeMapping then return []
      else
        let (k, v) ←
          if ← take? .key then
            let k ← nodeUnless fuel depth .flow [.value, .separator, .closeMapping]
            let v ←
              if ← take? .value then nodeUnless fuel depth .flow [.separator, .closeMapping]
              else empty
            pure (k, v)
          else pure (← node fuel depth .flow, ← empty)
        return (k, v) :: (← flowEntries fuel depth false)

end

/-- The directives before a document. Each may be given once, and only version 1 is known. -/
def directives : Nat → Bool → ReadM Unit
  | 0, _ => malformed
  | fuel + 1, hasVersion => do
    match ← peek with
    | some (.version major) =>
      if hasVersion || major ≠ 1 then malformed
      advance
      directives fuel true
    | some (.tagDirective h base) =>
      if ((← get).handles.lookup h).isSome then malformed
      modify fun r => { r with handles := (h, base) :: r.handles }
      advance
      directives fuel hasVersion
    | some .otherDirective =>
      advance
      directives fuel hasVersion
    | _ => return

def skipDocumentEnds : Nat → ReadM Unit
  | 0 => return
  | fuel + 1 => do if ← take? .documentEnd then skipDocumentEnds fuel

def isDirective : Token → Bool
  | .version _ | .tagDirective _ _ | .otherDirective => true
  | _ => false

/-- A document that begins with directives or a mark. -/
def explicitDocument (fuel : Nat) : ReadM NodeId := do
  directives fuel false
  expect .documentStart
  let t ← peek
  if t.all fun t => isDirective t || t = .documentStart || t = .documentEnd then empty
  else node fuel 0 .block

/-- The document of a text, if there is one. A second one is a fault, once it has begun. -/
def document (fuel : Nat) : ReadM Unit := do
  match ← peek with
  | none => return
  | some t =>
    let _ ←
      if isDirective t || t = .documentStart then explicitDocument fuel else node fuel 0 .block
    skipDocumentEnds fuel
    if (← peek).isSome then
      modify fun r => { r with handles := [] }
      directives fuel false
      malformed

/-- The nodes of a document; none where a text holds no document. -/
def ofTokens (tokens : Tokens) : Except Fault Graph :=
  ((document (3 * tokens.ready.length + 3)).run { tokens }).map (·.2.nodes)

end Graph

end Provision.Yaml
