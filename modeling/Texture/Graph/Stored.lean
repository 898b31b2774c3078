/- Texture/Graph/Stored
   digest: Nodes, edges and graphs in their stored form: reading either shape of a node and
   writing the flat one. -/

import Texture.Graph.Basic
import Texture.Json.Reading

set_option autoImplicit false
set_option relaxedAutoImplicit false

namespace Texture

open Json (Draft Origin Refusal Shape Slot)

namespace Operator

/-- Reads the name of an operator: a text, or a single field without a value. -/
def read (origin : Origin) : Draft → Except Refusal Operator
  | .string s => ofStoredName <$> s
  | .object fields => do
    match origin with
    | .text _ =>
      let _ ← origin.enter
      match fields with
      | [] => .error .noValue
      | (key, content) :: rest =>
        let op := ofStoredName (← key)
        match content with
        | .null => if rest.isEmpty then .ok op else .error .noValue
        | content => content.refuse "unit"
    | .value =>
      match fields with
      | [(key, content)] =>
        let op := ofStoredName (← key)
        match content with
        | .null => .ok op
        | content => content.refuse "unit"
      | _ => .error (.wrongValue .map "map with a single key")
  | d =>
    match origin with
    | .text _ => .error .noValue
    | .value => d.refuse "string or map"

end Operator

namespace Node

/-- What the outer and the inner part of a node have said so far. Each entry tells whether its field
has been read, and what it held. -/
structure Parts where
  id : Option String
  operator : Option (Option Operator)
  bag : Option (Option Bag)
  inner : Option (Option Parts)

def Parts.none : Parts := ⟨.none, .none, .none, .none⟩

def operatorSlot (aliases : List String) : Slot Parts where
  name := "type"
  aliases := aliases
  optional := true
  filled := fun parts => parts.operator.isSome
  read := fun origin d parts => do
    return { parts with operator := some (← d.readOption (Operator.read origin)) }

def bagSlot : Slot Parts where
  name := "params"
  aliases := []
  optional := true
  filled := fun parts => parts.bag.isSome
  read := fun origin d parts => do
    return { parts with bag := some (← d.readOption (Draft.readBag origin)) }

/-- The inner part, in which an editor keeps operator and parameters. -/
def innerShape : Shape Parts := ⟨"struct RawNodeData", [operatorSlot [], bagSlot]⟩

def shape : Shape Parts where
  name := "struct RawNode"
  slots := [
    { name := "id", aliases := [], optional := false, filled := fun parts => parts.id.isSome
      read := fun _ d parts => do return { parts with id := some (← d.readString) } },
    operatorSlot ["operatorType"],
    bagSlot,
    { name := "data", aliases := [], optional := true, filled := fun parts => parts.inner.isSome
      read := fun origin d parts => do
        return { parts with
          inner := some (← d.readOption (innerShape.read Parts.none origin)) } }]

/-- The node that the parts describe: the inner part goes first, and an operator that is not known
counts as none. -/
def ofParts (parts : Parts) : Node :=
  let inner := parts.inner.join.getD Parts.none
  let known := fun (op : Option (Option Operator)) => op.join.filter (· ≠ .unknown)
  { id := parts.id.getD ""
    operator := ((known inner.operator).or (known parts.operator)).getD .unknown
    bag := (inner.bag.join.or parts.bag.join).getD [] }

def read (origin : Origin) (d : Draft) : Except Refusal Node :=
  ofParts <$> shape.read Parts.none origin d

def toJson (n : Node) : Json :=
  .object [("id", .string n.id), ("type", .string n.operator.storedName),
    ("params", .object n.bag)]

end Node

namespace Edge

structure Parts where
  id : Option String
  source : Option String
  sourceHandle : Option String
  target : Option String
  targetHandle : Option String

/-- An edge. Handles that are missing or null have their usual names. -/
def shape : Shape Parts where
  name := "struct Edge"
  slots := [
    { name := "id", aliases := [], optional := true, filled := fun parts => parts.id.isSome
      read := fun _ d parts => do return { parts with id := some (← d.readString) } },
    { name := "source", aliases := ["sourceNodeId"], optional := false
      filled := fun parts => parts.source.isSome
      read := fun _ d parts => do return { parts with source := some (← d.readString) } },
    { name := "sourceHandle", aliases := [], optional := true
      filled := fun parts => parts.sourceHandle.isSome
      read := fun _ d parts => do
        return { parts with
          sourceHandle := some ((← d.readOption Draft.readString).getD "out") } },
    { name := "target", aliases := ["targetNodeId"], optional := false
      filled := fun parts => parts.target.isSome
      read := fun _ d parts => do return { parts with target := some (← d.readString) } },
    { name := "targetHandle", aliases := [], optional := true
      filled := fun parts => parts.targetHandle.isSome
      read := fun _ d parts => do
        return { parts with
          targetHandle := some ((← d.readOption Draft.readString).getD "in") } }]

def ofParts (parts : Parts) : Edge :=
  ⟨parts.id.getD "", parts.source.getD "", parts.sourceHandle.getD "out", parts.target.getD "",
    parts.targetHandle.getD "in"⟩

def read (origin : Origin) (d : Draft) : Except Refusal Edge :=
  ofParts <$> shape.read ⟨none, none, none, none, none⟩ origin d

def toJson (e : Edge) : Json :=
  .object [("id", .string e.id), ("source", .string e.source),
    ("sourceHandle", .string e.sourceHandle), ("target", .string e.target),
    ("targetHandle", .string e.targetHandle)]

end Edge

namespace Graph

structure Parts where
  nodes : Option (List Node)
  edges : Option (List Edge)

def shape : Shape Parts where
  name := "struct Graph"
  slots := [
    { name := "nodes", aliases := [], optional := false
      filled := fun parts => parts.nodes.isSome
      read := fun origin d parts => do
        return { parts with nodes := some (← d.readList Node.read origin) } },
    { name := "edges", aliases := [], optional := false
      filled := fun parts => parts.edges.isSome
      read := fun origin d parts => do
        return { parts with edges := some (← d.readList Edge.read origin) } }]

def read (origin : Origin) (d : Draft) : Except Refusal Graph := do
  let parts ← shape.read ⟨none, none⟩ origin d
  return ⟨parts.nodes.getD [], parts.edges.getD []⟩

def agrees (g h : Graph) : Bool :=
  g.nodes.length == h.nodes.length
    && (g.nodes.zip h.nodes).all (fun (m, n) =>
      m.id == n.id && m.operator == n.operator && Json.agreeFields m.bag n.bag)
    && g.edges == h.edges

end Graph

end Texture
