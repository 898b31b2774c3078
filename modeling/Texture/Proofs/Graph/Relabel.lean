/- Texture/Proofs/Graph/Relabel
   digest: Graphs under other ids, and graphs that agree on all that lies below a root. -/

import Mathlib.Logic.Function.Basic
import Texture.Proofs.Graph.Order

set_option autoImplicit false
set_option relaxedAutoImplicit false

namespace Texture

section

variable (f : String → String)

def Node.relabel (n : Node) : Node := { n with id := f n.id }

def Edge.relabel (e : Edge) : Edge := { e with source := f e.source, target := f e.target }

/-- The graph with its nodes under other ids. Edges and inputs keep theirs. -/
def Graph.relabel (g : Graph) : Graph :=
  ⟨g.nodes.map (Node.relabel f), g.edges.map (Edge.relabel f)⟩

end

namespace Graph

open Relation (ReflTransGen EqvGen)

/-- What a graph says of an id, another one says of its new name: which node there is, and what
feeds the inputs that it reads. -/
structure Reflects (f : String → String) (g h : Graph) (id : String) : Prop where
  node : h.node? (f id) = (g.node? id).map (Node.relabel f)
  producer : ∀ n, g.node? id = some n → ∀ handle ∈ n.operator.handles,
    h.producer? (f id) handle = (g.producer? id handle).map f

/-- Two graphs say the same of an id: which node there is, if any, and what feeds the inputs that
it reads, if anything does. -/
structure Agrees (g h : Graph) (id : String) : Prop where
  node : g.node? id = h.node? id
  producer : ∀ n, g.node? id = some n → ∀ handle ∈ n.operator.handles,
    g.producer? id handle = h.producer? id handle

def AgreesBelow (g h : Graph) (root : String) : Prop :=
  ∀ id, g.Depends root id → g.Agrees h id

variable {f : String → String} {g h k : Graph} {id root : String}

theorem Agrees.reflects (agrees : g.Agrees h id) : Reflects (fun id => id) g h id := by
  constructor
  · have same : Node.relabel (fun id => id) = fun n => n := rfl
    rw [agrees.node, same, Option.map_id']
  · intro n found handle read
    rw [agrees.producer n found handle read, Option.map_id']

private theorem Agrees.producers_eq (agrees : g.Agrees h id) : g.producers id = h.producers id := by
  cases found : g.node? id with
  | none =>
    have missing : h.node? id = none := agrees.node.symm.trans found
    simp only [producers, found, missing]
  | some n =>
    have found' : h.node? id = some n := agrees.node.symm.trans found
    rw [producers_of_node? found, producers_of_node? found']
    exact List.filterMap_congr (agrees.producer n found)

private theorem Agrees.reads_iff {source : String} (agrees : g.Agrees h id) :
    g.Reads id source ↔ h.Reads id source := by
  rw [Reads, Reads, agrees.producers_eq]

private theorem Agrees.symm (agrees : g.Agrees h id) : h.Agrees g id := by
  refine ⟨agrees.node.symm, ?_⟩
  intro n found handle read
  exact (agrees.producer n (agrees.node.trans found) handle read).symm

private theorem Agrees.trans (agrees : g.Agrees h id) (agrees' : h.Agrees k id) :
    g.Agrees k id := by
  refine ⟨agrees.node.trans agrees'.node, ?_⟩
  intro n found handle read
  have found' : h.node? id = some n := agrees.node.symm.trans found
  exact (agrees.producer n found handle read).trans (agrees'.producer n found' handle read)

namespace AgreesBelow

theorem refl (g : Graph) (root : String) : g.AgreesBelow g root :=
  fun _ _ => ⟨rfl, fun _ _ _ _ => rfl⟩

private theorem depends_iff (agree : g.AgreesBelow h root) :
    g.Depends root id ↔ h.Depends root id := by
  constructor
  · intro below
    induction below with
    | refl => exact ReflTransGen.refl
    | tail way edge ih => exact ih.tail ((agree _ way).reads_iff.mp edge)
  · intro below
    induction below with
    | refl => exact ReflTransGen.refl
    | tail _ edge ih => exact ih.tail ((agree _ ih).reads_iff.mpr edge)

theorem symm (agree : g.AgreesBelow h root) : h.AgreesBelow g root :=
  fun id below => (agree id (agree.depends_iff.mpr below)).symm

theorem trans (agree : g.AgreesBelow h root) (agree' : h.AgreesBelow k root) :
    g.AgreesBelow k root :=
  fun id below => (agree id below).trans (agree' id (agree.depends_iff.mp below))

end AgreesBelow

end Graph

end Texture
