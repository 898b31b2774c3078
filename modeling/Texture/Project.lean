/- Texture/Project
   digest: Projects: a graph with a name and a resolution, read from text and written to it. -/

import Texture.Graph.Stored
import Texture.Json.Printer
import Texture.Resolution

set_option autoImplicit false
set_option relaxedAutoImplicit false

namespace Texture

open Json (Draft Origin Refusal Shape)

structure Project where
  name : String
  resolution : Resolution
  graph : Graph

namespace Project

def defaultName : String := "Untitled Project"

/-- Reads a resolution: a number of thirty-two bits in the range of edge lengths. -/
def readResolution (d : Draft) : Except Refusal Resolution := do
  match Resolution.ofPixels (← d.readCount) with
  | .ok r => .ok r
  | .error fault => .error (.unfit fault.message)

structure Parts where
  name : Option String
  resolution : Option Resolution
  nodes : Option (List Node)
  edges : Option (List Edge)

def shape : Shape Parts where
  name := "struct Project"
  slots := [
    { name := "name", aliases := [], optional := true, filled := fun parts => parts.name.isSome
      read := fun _ d parts => do return { parts with name := some (← d.readString) } },
    { name := "resolution", aliases := [], optional := true
      filled := fun parts => parts.resolution.isSome
      read := fun _ d parts => do
        return { parts with resolution := some (← readResolution d) } },
    { name := "nodes", aliases := [], optional := false
      filled := fun parts => parts.nodes.isSome
      read := fun origin d parts => do
        return { parts with nodes := some (← d.readList Node.read origin) } },
    { name := "edges", aliases := [], optional := false
      filled := fun parts => parts.edges.isSome
      read := fun origin d parts => do
        return { parts with edges := some (← d.readList Edge.read origin) } }]

def read (origin : Origin) (d : Draft) : Except Refusal Project := do
  let parts ← shape.read ⟨none, none, none, none⟩ origin d
  return {
    name := parts.name.getD defaultName
    resolution := parts.resolution.getD Resolution.standard
    graph := ⟨parts.nodes.getD [], parts.edges.getD []⟩ }

inductive Unreadable where
  | malformed
  | refused (reason : Refusal)

def ofText (text : String) : Except Unreadable Project :=
  match Draft.ofText? text with
  | none => .error .malformed
  | some d => (read Origin.wholeText d).mapError .refused

def Unreadable.fault : Unreadable → Fault
  | malformed => .serialization "parse project: malformed text"
  | refused reason => .serialization ("parse project: " ++ reason.message)

def toJson (p : Project) : Json :=
  .object [("name", .string p.name), ("resolution", .number (.natural p.resolution.pixels)),
    ("nodes", .array (p.graph.nodes.map Node.toJson)),
    ("edges", .array (p.graph.edges.map Edge.toJson))]

def toText (p : Project) : String := p.toJson.pretty 0

end Project

end Texture
