/- Texture/Graph/Basic
   digest: Graphs of operator nodes and edges from producers to inputs, and their editing. -/

import Texture.Json.Basic
import Texture.Operator.Kind

set_option autoImplicit false
set_option relaxedAutoImplicit false

namespace Texture

/-- An operator with its parameters as they are stored. -/
structure Node where
  id : String
  operator : Operator
  bag : Bag
  deriving Inhabited

structure Edge where
  id : String
  source : String
  sourceHandle : String
  target : String
  targetHandle : String
  deriving DecidableEq, Repr, Inhabited

namespace Edge

def feeds (e : Edge) (target handle : String) : Bool :=
  e.target == target && e.targetHandle == handle

def touches (e : Edge) (id : String) : Bool := e.source == id || e.target == id

end Edge

/-- Nodes and edges in the order in which they were added. Ids need not be unique: the first node
or edge with an id answers for it. -/
structure Graph where
  nodes : List Node
  edges : List Edge
  deriving Inhabited

namespace Graph

def empty : Graph := ⟨[], []⟩

def node? (g : Graph) (id : String) : Option Node := g.nodes.find? fun n => n.id == id

def output? (g : Graph) : Option Node := g.nodes.find? fun n => n.operator == .output

def incoming? (g : Graph) (target handle : String) : Option Edge :=
  g.edges.find? fun e => e.feeds target handle

/-- Adds an edge and takes out the one that fed the same input, which is returned. -/
def connect (g : Graph) (e : Edge) : Graph × Option Edge :=
  ({ g with edges := g.edges.eraseP (fun old => old.feeds e.target e.targetHandle) ++ [e] },
    g.incoming? e.target e.targetHandle)

def disconnect (g : Graph) (id : String) : Graph × Option Edge :=
  ({ g with edges := g.edges.eraseP fun e => e.id == id }, g.edges.find? fun e => e.id == id)

def addNode (g : Graph) (n : Node) : Graph := { g with nodes := g.nodes ++ [n] }

/-- Takes out a node with all edges that touch it, and returns it. -/
def removeNode (g : Graph) (id : String) : Graph × Option Node :=
  match g.node? id with
  | none => (g, none)
  | some n =>
    (⟨g.nodes.eraseP fun m => m.id == id, g.edges.filter fun e => !e.touches id⟩, some n)

def modifyNode (id : String) (change : Node → Node) : List Node → List Node
  | [] => []
  | n :: rest => if n.id = id then change n :: rest else n :: modifyNode id change rest

/-- Gives parameters of a node new values, and tells whether there is such a node. -/
def updateBag (g : Graph) (id : String) (patch : Bag) : Graph × Bool :=
  ({ g with nodes := modifyNode id (fun n => { n with bag := n.bag.merge patch }) g.nodes },
    (g.node? id).isSome)

end Graph

end Texture
