/- Texture/Proofs/Bake/Additive
   digest: Additive groups in their order, the innermost first and from left to right, and
   documents in which an image stands for the children of each. -/

import Mathlib.Tactic.Common
import Texture.Bake

set_option autoImplicit false
set_option relaxedAutoImplicit false

namespace Texture.Svg

namespace Node

mutual

/-- How many additive groups a node holds, at any depth. -/
def additives : Node → Nat
  | shape _ _ => 0
  | group effects children =>
    additivesAll children + if isAdditive effects children then 1 else 0
  | image _ _ _ => 0

def additivesAll : List Node → Nat
  | [] => 0
  | n :: ns => additives n + additivesAll ns

end

mutual

/-- The node with an image for the children of each additive group. The groups are numbered from
`k` on. -/
def replace (images : Nat → Node) (k : Nat) : Node → Node
  | shape geometry style => shape geometry style
  | group effects children =>
    group effects (if isAdditive effects children then [images (k + additivesAll children)]
      else replaceAll images k children)
  | image box address rendering => image box address rendering

def replaceAll (images : Nat → Node) (k : Nat) : List Node → List Node
  | [] => []
  | n :: ns => replace images k n :: replaceAll images (k + additives n) ns

end

mutual

/-- What is added up in the additive groups of a node: their children, in which images stand for
groups further in. -/
def summands (images : Nat → Node) (k : Nat) : Node → List (List Node)
  | shape _ _ => []
  | group effects children =>
    summandsAll images k children
      ++ if isAdditive effects children then [replaceAll images k children] else []
  | image _ _ _ => []

def summandsAll (images : Nat → Node) (k : Nat) : List Node → List (List Node)
  | [] => []
  | n :: ns => summands images k n ++ summandsAll images (k + additives n) ns

end

mutual

def EveryGroup (P : Effects → List Node → Prop) : Node → Prop
  | shape _ _ => True
  | group effects children => P effects children ∧ EveryGroupAll P children
  | image _ _ _ => True

def EveryGroupAll (P : Effects → List Node → Prop) : List Node → Prop
  | [] => True
  | n :: ns => EveryGroup P n ∧ EveryGroupAll P ns

end

/-- Some nodes hold no additive group. -/
def Summed (ns : List Node) : Prop :=
  EveryGroupAll (fun effects children => isAdditive effects children = false) ns

/-- How the pixel of a child of an additive group is laid on the sum of those before it. -/
def lay (n : Node) (below above : Pixel) : Pixel :=
  if n.blend = .plusLighter then Pixel.add below above else Pixel.cover below above

@[simp] theorem blend_replace (images : Nat → Node) (k : Nat) (n : Node) :
    (replace images k n).blend = n.blend := by
  cases n with
  | shape geometry style => rfl
  | group effects children =>
    rw [replace]
    rfl
  | image box address rendering => rfl

private theorem replaceAll_blends (images : Nat → Node) (k : Nat) (ns : List Node) :
    (replaceAll images k ns).map blend = ns.map blend := by
  induction ns generalizing k with
  | nil => rfl
  | cons n ns ih => rw [replaceAll, List.map_cons, List.map_cons, blend_replace, ih]

theorem isAdditive_congr (effects : Effects) {children others : List Node}
    (h : children.map blend = others.map blend) :
    isAdditive effects children = isAdditive effects others := by
  have any : ∀ ns : List Node, ns.any (fun n => n.blend == .plusLighter) =
      (ns.map blend).any (· == .plusLighter) := fun ns => by rw [List.any_map]; rfl
  have all : ∀ ns : List Node, ns.all (fun n => n.blend == .normal || n.blend == .plusLighter) =
      (ns.map blend).all (fun b => b == .normal || b == .plusLighter) := fun ns => by
    rw [List.all_map]
    rfl
  rw [isAdditive, isAdditive, any, any, all, all, h]

theorem isAdditive_replaceAll (images : Nat → Node) (k : Nat) (effects : Effects)
    (children : List Node) :
    isAdditive effects (replaceAll images k children) = isAdditive effects children :=
  isAdditive_congr effects (replaceAll_blends images k children)

private theorem isAdditive_singleton {n : Node} (h : n.blend = .normal) (effects : Effects) :
    isAdditive effects [n] = false := by
  simp [isAdditive, h]

mutual

private theorem length_summands (images : Nat → Node) (k : Nat) (n : Node) :
    (summands images k n).length = n.additives := by
  cases n with
  | shape geometry style => rfl
  | group effects children =>
    rw [summands, additives, List.length_append, length_summandsAll images k children]
    split <;> rfl
  | image box address rendering => rfl

private theorem length_summandsAll (images : Nat → Node) (k : Nat) (ns : List Node) :
    (summandsAll images k ns).length = additivesAll ns := by
  cases ns with
  | nil => rfl
  | cons n ns =>
    rw [summandsAll, additivesAll, List.length_append, length_summands images k n,
      length_summandsAll images _ ns]

end

mutual

theorem replace_summed {images : Nat → Node} (plain : ∀ k, Summed [images k])
    (normal : ∀ k, (images k).blend = .normal) (k : Nat) (n : Node) :
    Summed [replace images k n] := by
  cases n with
  | shape geometry style => exact ⟨trivial, trivial⟩
  | group effects children =>
    rw [replace]
    cases additive : isAdditive effects children with
    | true =>
      rw [if_pos rfl]
      exact ⟨⟨isAdditive_singleton (normal _) effects, plain _⟩, trivial⟩
    | false =>
      rw [if_neg Bool.false_ne_true]
      have same : isAdditive effects (replaceAll images k children) = false := by
        rw [isAdditive_replaceAll, additive]
      exact ⟨⟨same, replaceAll_summed plain normal k children⟩, trivial⟩
  | image box address rendering => exact ⟨trivial, trivial⟩

private theorem replaceAll_summed {images : Nat → Node} (plain : ∀ k, Summed [images k])
    (normal : ∀ k, (images k).blend = .normal) (k : Nat) (ns : List Node) :
    Summed (replaceAll images k ns) := by
  cases ns with
  | nil => exact trivial
  | cons n ns =>
    exact ⟨(replace_summed plain normal k n).1, replaceAll_summed plain normal _ ns⟩

end

mutual

private theorem replace_of_summed (images : Nat → Node) (k : Nat) {n : Node} (summed : Summed [n]) :
    replace images k n = n ∧ n.additives = 0 := by
  cases n with
  | shape geometry style => exact ⟨rfl, rfl⟩
  | group effects children =>
    obtain ⟨⟨additive, below⟩, -⟩ := summed
    obtain ⟨same, none⟩ := replaceAll_of_summed images k below
    rw [replace, additives, additive, same, none]
    exact ⟨rfl, rfl⟩
  | image box address rendering => exact ⟨rfl, rfl⟩

private theorem replaceAll_of_summed (images : Nat → Node) (k : Nat) {ns : List Node}
    (summed : Summed ns) : replaceAll images k ns = ns ∧ additivesAll ns = 0 := by
  cases ns with
  | nil => exact ⟨rfl, rfl⟩
  | cons n ns =>
    obtain ⟨same, none⟩ := replace_of_summed images k (n := n) ⟨summed.1, trivial⟩
    obtain ⟨same', none'⟩ := replaceAll_of_summed images (k + n.additives) summed.2
    rw [replaceAll, additivesAll, same, same', none, none']
    exact ⟨rfl, rfl⟩

end

end Node

def Def.content : Def → List Node
  | .mask _ _ content => content
  | _ => []

def Def.replace (images : Nat → Node) (k : Nat) : Def → Def
  | .mask id region content => .mask id region (Node.replaceAll images k content)
  | d => d

def additivesOf : List Def → Nat
  | [] => 0
  | d :: ds => Node.additivesAll d.content + additivesOf ds

def replaceDefs (images : Nat → Node) (k : Nat) : List Def → List Def
  | [] => []
  | d :: ds => d.replace images k :: replaceDefs images (k + Node.additivesAll d.content) ds

/-- What is added up in an additive group, and the definitions at that time. -/
structure Stack where
  definitions : Definitions
  children : List Node

/-- What is added up in the masks of some definitions. Those in front are rewritten already. -/
def maskStacks (images : Nat → Node) : List Def → Nat → List Def → List Stack
  | _, _, [] => []
  | done, k, d :: rest =>
    (Node.summandsAll images k d.content).map (Stack.mk ⟨done ++ d :: rest⟩)
      ++ maskStacks images (done ++ [d.replace images k]) (k + Node.additivesAll d.content) rest

namespace Document

/-- The document with an image for the children of each additive group, masks first. -/
def replace (images : Nat → Node) (doc : Document) : Document :=
  { doc with
    definitions := ⟨replaceDefs images 0 doc.definitions.items⟩
    content := Node.replaceAll images (additivesOf doc.definitions.items) doc.content }

def allStacks (images : Nat → Node) (doc : Document) : List Stack :=
  maskStacks images [] 0 doc.definitions.items
    ++ (Node.summandsAll images (additivesOf doc.definitions.items) doc.content).map
      (Stack.mk ⟨replaceDefs images 0 doc.definitions.items⟩)

/-- A document holds no additive group, neither in its content nor in a mask. -/
def Summed (doc : Document) : Prop :=
  Node.Summed doc.content ∧ ∀ d ∈ doc.definitions.items, Node.Summed d.content

end Document

private theorem replaceDefs_summed {images : Nat → Node} (plain : ∀ k, Node.Summed [images k])
    (normal : ∀ k, (images k).blend = .normal) (k : Nat) (ds : List Def) :
    ∀ d ∈ replaceDefs images k ds, Node.Summed d.content := by
  induction ds generalizing k with
  | nil => simp [replaceDefs]
  | cons d ds ih =>
    rw [replaceDefs, List.forall_mem_cons]
    refine ⟨?_, ih _⟩
    cases d with
    | gradient g => exact trivial
    | filter id region primitives => exact trivial
    | mask id region content => exact Node.replaceAll_summed plain normal k content

namespace Document

theorem replace_summed {images : Nat → Node} (plain : ∀ k, Node.Summed [images k])
    (normal : ∀ k, (images k).blend = .normal) (doc : Document) : (doc.replace images).Summed :=
  ⟨Node.replaceAll_summed plain normal _ doc.content,
    replaceDefs_summed plain normal 0 doc.definitions.items⟩

end Document

namespace Document

end Document

end Texture.Svg
