/- Texture/Evaluate
   digest: The artifact of a graph: producers before consumers, each node once, cycles refused. -/

import Texture.Graph.Index
import Texture.Operator.Apply
import Texture.Operator.Decode

set_option autoImplicit false
set_option relaxedAutoImplicit false

namespace Texture.Evaluate

/-- The artifacts of the nodes that are done, by their ids. -/
abbrev Memo := List (String × Artifact)

/-- Fills inputs one after the other by visiting their producers. An input without an edge stays
unconnected. -/
def gather (visit : String → Memo → Work (Artifact × Memo)) (index : Index) (id : String) :
    List Handle → Inputs → Memo → Work (Inputs × Memo)
  | [], inputs, memo => return (inputs, memo)
  | handle :: handles, inputs, memo => do
    match index.producer? id handle.name with
    | none => gather visit index id handles inputs memo
    | some source =>
      let (a, memo) ← visit source memo
      gather visit index id handles (inputs.set a handle) memo

/-- The artifact of an id. A node that is done is not visited again, an id without a node yields
nothing, and a node on the path that led here feeds itself. The path holds ids of nodes, each once,
so the fuel of one more than their number lasts. -/
def visit (index : Index) (canvas : Canvas) :
    Nat → List String → String → Memo → Work (Artifact × Memo)
  | 0, _, id, _ => throw (.cyclic id)
  | fuel + 1, path, id, memo => do
    match memo.lookup id with
    | some a => return (a, memo)
    | none =>
      match index.node? id with
      | none => return (.empty, memo)
      | some n =>
        if path.contains id then throw (.cyclic id)
        else
          let (inputs, memo) ←
            gather (visit index canvas fuel (id :: path)) index id n.operator.handles Inputs.none
              memo
          let a ← (Settings.ofBag n.operator n.bag).apply canvas inputs
          return (a, (id, a) :: memo)

/-- The node to start from: the one of the given id or, if none is given, the first output. -/
def root? (g : Graph) : Option String → Option Node
  | some id => g.node? id
  | none => g.output?

/-- The artifact of a graph with those of all nodes that it took; without a node to start from there
is nothing. -/
def walk (g : Graph) (canvas : Canvas) (root : Option String) : Work (Artifact × Memo) :=
  match root? g root with
  | none => return (.empty, [])
  | some n => visit g.index canvas (g.nodes.length + 1) [] n.id []

def artifact (g : Graph) (canvas : Canvas) (root : Option String) : Work Artifact := do
  return (← walk g canvas root).1

/-- The colour below compiled documents. -/
def background : Color := Color.gray 0x05

def document (g : Graph) (canvas : Canvas) (root : Option String) : Work Svg.Document := do
  return (← artifact g canvas root).toDocument canvas.resolution (some background)

def picture (g : Graph) (canvas : Canvas) (root : Option String) : Work Picture := do
  let doc ← document g canvas root
  Bake.document canvas.rasterizer canvas.resolution.pixels canvas.resolution.pixels doc

end Texture.Evaluate
