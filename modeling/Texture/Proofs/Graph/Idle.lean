/- Texture/Proofs/Graph/Idle
   digest: Edits that change nothing of what lies below a root: other names for edges, another order
   of nodes and edges, and parts taken out that nothing below the root ever looks at. -/

import Mathlib.Data.List.Nodup
import Texture.Proofs.Graph.Relabel

set_option autoImplicit false
set_option relaxedAutoImplicit false

namespace Texture

def Edge.input (e : Edge) : String × String := (e.target, e.targetHandle)

def Edge.retag (tag : Edge → String × String) (e : Edge) : Edge :=
  { e with id := (tag e).1, sourceHandle := (tag e).2 }

private theorem Edge.feeds_eq (e : Edge) (target handle : String) :
    e.feeds target handle = (e.input == (target, handle)) := by
  rw [Bool.eq_iff_iff]
  simp [Edge.feeds, Edge.input]

namespace Graph

/-- An edit that changes nothing of what lies below a root. -/
inductive Idle (root : String) : Graph → Graph → Prop
  | retag (g : Graph) (tag : Edge → String × String) :
      Idle root g { g with edges := g.edges.map (Edge.retag tag) }
  | reorderNodes {nodes others : List Node} (edges : List Edge) (order : nodes.Perm others)
      (unique : (nodes.map Node.id).Nodup) : Idle root ⟨nodes, edges⟩ ⟨others, edges⟩
  | reorderEdges (nodes : List Node) {edges others : List Edge} (order : edges.Perm others)
      (unique : (edges.map Edge.input).Nodup) : Idle root ⟨nodes, edges⟩ ⟨nodes, others⟩
  /-- A node that the root does not depend on is taken out. -/
  | unreachedNode {before after : List Node} {edges : List Edge} {n : Node}
      (unreached : ¬ Depends ⟨before ++ n :: after, edges⟩ root n.id) :
      Idle root ⟨before ++ n :: after, edges⟩ ⟨before ++ after, edges⟩
  /-- A node is taken out behind another one with its id. -/
  | laterNode {before after : List Node} {edges : List Edge} {n : Node}
      (earlier : n.id ∈ before.map Node.id) :
      Idle root ⟨before ++ n :: after, edges⟩ ⟨before ++ after, edges⟩
  /-- An edge is taken out that ends at no node, at one that the root does not depend on, or at an
  input that is not read. -/
  | unreadEdge {nodes : List Node} {before after : List Edge} {e : Edge}
      (unread : Depends ⟨nodes, before ++ e :: after⟩ root e.target →
        ∀ n, node? ⟨nodes, before ++ e :: after⟩ e.target = some n →
          ∀ handle ∈ n.operator.handles, handle.name ≠ e.targetHandle) :
      Idle root ⟨nodes, before ++ e :: after⟩ ⟨nodes, before ++ after⟩
  /-- An edge is taken out behind another one into its input. -/
  | laterEdge {nodes : List Node} {before after : List Edge} {e : Edge}
      (earlier : e.input ∈ before.map Edge.input) :
      Idle root ⟨nodes, before ++ e :: after⟩ ⟨nodes, before ++ after⟩

section

variable {α κ : Type} [BEq κ] [LawfulBEq κ]

private theorem find?_key_iff {key : α → κ} {items : List α} (unique : (items.map key).Nodup)
    (k : κ) (a : α) : items.find? (fun b => key b == k) = some a ↔ a ∈ items ∧ key a = k := by
  constructor
  · intro found
    have same : key a = k := by simpa using List.find?_some found
    exact ⟨List.mem_of_find?_eq_some found, same⟩
  · rintro ⟨mem, rfl⟩
    have some_of : (items.find? fun b => key b == key a).isSome := by
      rw [List.find?_isSome]
      exact ⟨a, mem, by simp⟩
    obtain ⟨b, found⟩ := Option.isSome_iff_exists.mp some_of
    have same : key b = key a := by simpa using List.find?_some found
    rw [found, List.inj_on_of_nodup_map unique (List.mem_of_find?_eq_some found) mem same]

private theorem find?_perm {key : α → κ} {items others : List α} (order : items.Perm others)
    (unique : (items.map key).Nodup) (k : κ) :
    items.find? (fun a => key a == k) = others.find? (fun a => key a == k) := by
  have unique' : (others.map key).Nodup := (order.map key).nodup_iff.mp unique
  ext a
  rw [find?_key_iff unique, find?_key_iff unique', order.mem_iff]

private theorem find?_without {p : α → Bool} {before after : List α} {a : α}
    (hidden : p a = true → ∃ b ∈ before, p b = true) :
    (before ++ a :: after).find? p = (before ++ after).find? p := by
  rw [List.find?_append, List.find?_append, List.find?_cons]
  cases hit : p a with
  | false => rfl
  | true =>
    have found : (before.find? p).isSome := by
      rw [List.find?_isSome]
      exact hidden hit
    rw [Option.or_of_isSome found, Option.or_of_isSome found]

end

variable {g h : Graph} {root : String}

private theorem agrees_of_nodes_eq {nodes : List Node} {edges others : List Edge} {id : String}
    (same : ∀ n, node? ⟨nodes, edges⟩ id = some n → ∀ handle ∈ n.operator.handles,
      incoming? ⟨nodes, edges⟩ id handle.name = incoming? ⟨nodes, others⟩ id handle.name) :
    Agrees ⟨nodes, edges⟩ ⟨nodes, others⟩ id := by
  refine ⟨rfl, ?_⟩
  intro n found handle read
  rw [producer?, producer?, same n found handle read]

private theorem Idle.agreesBelow (idle : Idle root g h) : g.AgreesBelow h root := by
  intro id below
  cases idle with
  | @retag _ tag =>
    refine ⟨rfl, fun n _ handle _ => ?_⟩
    have untouched : (fun e : Edge => e.feeds id handle.name) ∘ Edge.retag tag =
        fun e => e.feeds id handle.name := rfl
    rw [producer?, producer?, incoming?, incoming?, List.find?_map, untouched, Option.map_map]
    rfl
  | reorderNodes edges order unique =>
    exact ⟨find?_perm order unique id, fun _ _ _ _ => rfl⟩
  | reorderEdges nodes order unique =>
    refine agrees_of_nodes_eq fun n _ handle _ => ?_
    simp only [incoming?, Edge.feeds_eq]
    exact find?_perm order unique (id, handle.name)
  | @unreachedNode before after edges n unreached =>
    -- What is looked up below the root is another node than the one that is taken out.
    refine ⟨find?_without fun hit => ?_, fun _ _ _ _ => rfl⟩
    have same : n.id = id := by simpa using hit
    exact absurd (same ▸ below) unreached
  | @laterNode before after edges n earlier =>
    refine ⟨find?_without fun hit => ?_, fun _ _ _ _ => rfl⟩
    obtain ⟨m, mem, same⟩ := List.mem_map.mp earlier
    exact ⟨m, mem, by rwa [same]⟩
  | @unreadEdge nodes before after e unread =>
    refine agrees_of_nodes_eq fun n found handle read => find?_without fun hit => ?_
    obtain ⟨target, into⟩ : e.target = id ∧ e.targetHandle = handle.name := by
      simpa [Edge.feeds] using hit
    subst target
    exact absurd into.symm (unread below n found handle read)
  | @laterEdge nodes before after e earlier =>
    refine agrees_of_nodes_eq fun n _ handle _ => find?_without fun hit => ?_
    obtain ⟨other, mem, same⟩ := List.mem_map.mp earlier
    obtain ⟨target, into⟩ := Prod.mk.inj same
    refine ⟨other, mem, ?_⟩
    rwa [Edge.feeds, target, into]

open Relation (EqvGen)

theorem agreesBelow_of_idle (edits : EqvGen (Idle root) g h) : g.AgreesBelow h root := by
  induction edits with
  | rel g h idle => exact idle.agreesBelow
  | refl g => exact AgreesBelow.refl g root
  | symm g h _ ih => exact ih.symm
  | trans g h k _ _ ih ih' => exact ih.trans ih'

end Graph

end Texture
