/- Texture/Proofs/Graph/Order
   digest: Which nodes a node depends on, and the order in which producers come before what they
   feed. -/

import Mathlib.Data.List.Induction
import Mathlib.Data.List.Perm.Subperm
import Mathlib.Logic.Relation
import Mathlib.Tactic.Common
import Texture.Graph.Basic

set_option autoImplicit false
set_option relaxedAutoImplicit false

namespace Texture.Graph

open Relation (ReflTransGen TransGen)

def Has (g : Graph) (id : String) : Prop := (g.node? id).isSome

instance (g : Graph) (id : String) : Decidable (g.Has id) := inferInstanceAs (Decidable (_ = true))

/-- The id of the node that feeds an input, whether or not such a node exists. -/
def producer? (g : Graph) (id : String) (handle : Handle) : Option String :=
  (g.incoming? id handle.name).map Edge.source

def feeds (g : Graph) (id : String) (handles : List Handle) : List String :=
  handles.filterMap (g.producer? id)

def producers (g : Graph) (id : String) : List String :=
  match g.node? id with
  | some n => g.feeds id n.operator.handles
  | none => []

def Reads (g : Graph) (id source : String) : Prop := source ∈ g.producers id

/-- A node depends on itself, on what it reads, and on what these depend on. -/
def Depends (g : Graph) : String → String → Prop := ReflTransGen g.Reads

/-- Nothing that a node depends on feeds itself. -/
def AcyclicFrom (g : Graph) (root : String) : Prop :=
  ∀ id, g.Depends root id → ¬ TransGen g.Reads id id

/-- The ids of existing nodes below a node, each as often as a way leads to it, and what feeds a
node before it. -/
def unrolled (g : Graph) : Nat → String → List String
  | 0, _ => []
  | depth + 1, id =>
    if g.Has id then (g.producers id).flatMap (g.unrolled depth) ++ [id] else []

/-- The ids of the existing nodes that a node depends on, each once, in depth-first order with what
feeds a node before it. A way without repetition meets no more nodes than there are. -/
def postorder (g : Graph) (root : String) : List String :=
  (g.unrolled (g.nodes.length + 1) root).eraseDups

/-- Every existing node that feeds a listed one is listed before it. -/
def Ordered (g : Graph) (ids : List String) : Prop :=
  ∀ before id after, ids = before ++ id :: after →
    ∀ source, g.Reads id source → g.Has source → source ∈ before

/-- The nodes that a root depends on, listed so that they can be evaluated one after the other. -/
structure IsSchedule (g : Graph) (root : String) (ids : List String) : Prop where
  nodup : ids.Nodup
  mem_iff : ∀ id, id ∈ ids ↔ g.Depends root id ∧ g.Has id
  ordered : g.Ordered ids

variable {g : Graph} {id source root : String}

theorem has_iff : g.Has id ↔ ∃ n, g.node? id = some n := Option.isSome_iff_exists

theorem not_has_iff : ¬ g.Has id ↔ g.node? id = none := by
  simp [Has]

theorem node?_id {n : Node} (h : g.node? id = some n) : n.id = id := by
  have found := List.find?_some h
  simpa using found

theorem feeds_cons_none {handle : Handle} {handles : List Handle}
    (h : g.producer? id handle = none) : g.feeds id (handle :: handles) = g.feeds id handles := by
  rw [feeds, List.filterMap_cons, h, feeds]

theorem feeds_cons_some {handle : Handle} {handles : List Handle}
    (h : g.producer? id handle = some source) :
    g.feeds id (handle :: handles) = source :: g.feeds id handles := by
  rw [feeds, List.filterMap_cons, h, feeds]

theorem producers_of_node? {n : Node} (h : g.node? id = some n) :
    g.producers id = g.feeds id n.operator.handles := by
  simp only [producers, h]

theorem reads_iff {n : Node} (h : g.node? id = some n) :
    g.Reads id source ↔ source ∈ g.feeds id n.operator.handles := by
  rw [Reads, producers_of_node? h]

theorem Reads.has (h : g.Reads id source) : g.Has id := by
  by_contra missing
  rw [not_has_iff] at missing
  simp [Reads, producers, missing] at h

theorem Depends.mem {ids : List String} (below : g.Depends root id) (start : root ∈ ids)
    (closed : ∀ k ∈ ids, ∀ source ∈ g.producers k, source ∈ ids) : id ∈ ids := by
  induction below with
  | refl => exact start
  | tail _ edge ih => exact closed _ ih _ edge

theorem AcyclicFrom.of_reads (h : g.AcyclicFrom id) (edge : g.Reads id source) :
    g.AcyclicFrom source := by
  intro k below
  exact h k (ReflTransGen.head edge below)

theorem AcyclicFrom.not_depends (h : g.AcyclicFrom id) (edge : g.Reads id source) :
    ¬ g.Depends source id := by
  intro back
  exact h id ReflTransGen.refl (TransGen.head' edge back)

theorem AcyclicFrom.of_producers (h : ∀ source, g.Reads id source → g.AcyclicFrom source) :
    g.AcyclicFrom id := by
  intro k depends around
  rcases ReflTransGen.cases_head depends with rfl | ⟨source, edge, below⟩
  · obtain ⟨source, edge, back⟩ := TransGen.head'_iff.mp around
    exact h source edge id back around
  · exact h source edge k below around

private theorem AcyclicFrom.of_rank (rank : String → Nat)
    (h : ∀ id source, g.Reads id source → rank source < rank id) : g.AcyclicFrom root := by
  have falls : ∀ id source, TransGen g.Reads id source → rank source < rank id := by
    intro id source way
    induction way with
    | single edge => exact h _ _ edge
    | tail _ edge ih => exact Nat.lt_trans (h _ _ edge) ih
  intro id _ around
  exact Nat.lt_irrefl _ (falls id id around)

theorem AcyclicFrom.of_ranks (rank : String → Nat)
    (h : ∀ n ∈ g.nodes, ∀ source ∈ g.producers n.id, rank source < rank n.id) :
    g.AcyclicFrom root := by
  refine AcyclicFrom.of_rank rank ?_
  intro id source edge
  obtain ⟨n, found⟩ := has_iff.mp edge.has
  have same := node?_id found
  subst same
  exact h n (List.mem_of_find?_eq_some found) source edge

/-- The existing nodes met on a way down to a node. -/
structure Trail (g : Graph) (path : List String) (id : String) : Prop where
  nodup : path.Nodup
  has : ∀ k ∈ path, g.Has k
  leads : ∀ k ∈ path, TransGen g.Reads k id

namespace Trail

variable {path : List String}

theorem nil (g : Graph) (id : String) : g.Trail [] id :=
  ⟨List.nodup_nil, by simp, by simp⟩

theorem not_mem (trail : g.Trail path id) (acyclic : g.AcyclicFrom id) : id ∉ path := by
  intro mem
  exact acyclic id ReflTransGen.refl (trail.leads id mem)

theorem push (trail : g.Trail path id) (fresh : id ∉ path) (edge : g.Reads id source) :
    g.Trail (id :: path) source := by
  refine ⟨List.nodup_cons.mpr ⟨fresh, trail.nodup⟩, ?_, ?_⟩
  · intro k mem
    rcases List.mem_cons.mp mem with rfl | mem
    · exact edge.has
    · exact trail.has k mem
  · intro k mem
    rcases List.mem_cons.mp mem with rfl | mem
    · exact TransGen.single edge
    · exact (trail.leads k mem).tail edge

theorem step (trail : g.Trail path id) (acyclic : g.AcyclicFrom id) (edge : g.Reads id source) :
    g.Trail (id :: path) source :=
  trail.push (trail.not_mem acyclic) edge

theorem length_le (trail : g.Trail path id) : path.length ≤ g.nodes.length := by
  have within : path ⊆ g.nodes.map Node.id := by
    intro k mem
    obtain ⟨n, found⟩ := has_iff.mp (trail.has k mem)
    exact List.mem_map.mpr ⟨n, List.mem_of_find?_eq_some found, node?_id found⟩
  simpa using (trail.nodup.subperm within).length_le

end Trail

theorem unrolled_of_not_has (h : ¬ g.Has id) (depth : Nat) : g.unrolled depth id = [] := by
  cases depth with
  | zero => rfl
  | succ depth => rw [unrolled, if_neg h]

theorem unrolled_of_has (h : g.Has id) (depth : Nat) :
    g.unrolled (depth + 1) id = (g.producers id).flatMap (g.unrolled depth) ++ [id] := by
  rw [unrolled, if_pos h]

theorem depends_of_mem_unrolled {depth : Nat} {k : String} (mem : k ∈ g.unrolled depth id) :
    g.Depends id k ∧ g.Has k := by
  induction depth generalizing id with
  | zero => simp [unrolled] at mem
  | succ depth ih =>
    by_cases h : g.Has id
    · rw [unrolled_of_has h, List.mem_append, List.mem_flatMap, List.mem_singleton] at mem
      rcases mem with ⟨source, edge, mem⟩ | rfl
      · have below := ih mem
        exact ⟨ReflTransGen.head edge below.1, below.2⟩
      · exact ⟨ReflTransGen.refl, h⟩
    · rw [unrolled_of_not_has h] at mem
      simp at mem

theorem mem_unrolled {depth : Nat} {path : List String} {k : String} (acyclic : g.AcyclicFrom id)
    (trail : g.Trail path id) (deep : g.nodes.length < depth + path.length)
    (depends : g.Depends id k) (has : g.Has k) : k ∈ g.unrolled depth id := by
  induction depth generalizing id path with
  | zero =>
    have short := trail.length_le
    omega
  | succ depth ih =>
    rcases ReflTransGen.cases_head depends with rfl | ⟨source, edge, below⟩
    · rw [unrolled_of_has has]
      simp
    · rw [unrolled_of_has edge.has, List.mem_append, List.mem_flatMap]
      left
      refine ⟨source, edge, ih (acyclic.of_reads edge) (trail.step acyclic edge) ?_ below⟩
      rw [List.length_cons]
      omega

theorem Ordered.nil : g.Ordered [] := by
  intro before id after split
  simp at split

theorem Ordered.append {ids others : List String} (h : g.Ordered ids) (h' : g.Ordered others) :
    g.Ordered (ids ++ others) := by
  intro before id after split source edge has
  rcases List.append_eq_append_iff.mp split with ⟨rest, front, back⟩ | ⟨rest, front, back⟩
  · rw [front]
    exact List.mem_append_right _ (h' rest id after back source edge has)
  · cases rest with
    | nil =>
      rw [List.append_nil] at front
      have mem := h' [] id after back.symm source edge has
      simp at mem
    | cons k rest =>
      obtain ⟨rfl, -⟩ := List.cons.inj back
      exact h before _ rest front source edge has

private theorem Ordered.snoc {ids : List String} (h : g.Ordered ids)
    (ready : ∀ source, g.Reads id source → g.Has source → source ∈ ids) :
    g.Ordered (ids ++ [id]) := by
  intro before k after split source edge has
  rcases List.eq_nil_or_concat' after with rfl | ⟨rest, last, rfl⟩
  · obtain ⟨rfl, same⟩ := List.append_inj' split rfl
    obtain rfl := List.singleton_inj.mp same
    exact ready source edge has
  · rw [← List.cons_append, ← List.append_assoc] at split
    exact h before k rest (List.append_inj_left' split rfl) source edge has

theorem Ordered.front {ids others : List String} (h : g.Ordered (ids ++ others)) :
    g.Ordered ids := by
  intro before id after split
  exact h before id (after ++ others) (by rw [split]; simp)

private theorem Ordered.ready {ids : List String} (h : g.Ordered (ids ++ [id])) :
    ∀ source, g.Reads id source → g.Has source → source ∈ ids := h ids id [] rfl

theorem eraseDups_snoc (ids : List String) (id : String) :
    (ids ++ [id]).eraseDups = if id ∈ ids then ids.eraseDups else ids.eraseDups ++ [id] := by
  rw [List.eraseDups_append]
  by_cases mem : id ∈ ids
  · simp [mem, List.removeAll]
  · simp [mem, List.removeAll, List.eraseDups_cons]

private theorem nodup_eraseDups (ids : List String) : ids.eraseDups.Nodup := by
  induction ids using List.reverseRecOn with
  | nil => exact List.nodup_nil
  | append_singleton ids id ih =>
    rw [eraseDups_snoc]
    split
    · exact ih
    · rename_i fresh
      refine List.nodup_append.mpr ⟨ih, by simp, ?_⟩
      intro k mem j last
      rw [List.mem_singleton] at last
      subst last
      rintro rfl
      exact fresh (List.mem_eraseDups.mp mem)

private theorem Ordered.eraseDups {ids : List String} (h : g.Ordered ids) :
    g.Ordered ids.eraseDups := by
  induction ids using List.reverseRecOn with
  | nil => exact Ordered.nil
  | append_singleton ids id ih =>
    rw [eraseDups_snoc]
    split
    · exact ih h.front
    · refine (ih h.front).snoc ?_
      intro source edge has
      exact List.mem_eraseDups.mpr (h.ready source edge has)

theorem ordered_unrolled {depth : Nat} {path : List String} (acyclic : g.AcyclicFrom id)
    (trail : g.Trail path id) (deep : g.nodes.length < depth + path.length) :
    g.Ordered (g.unrolled depth id) := by
  induction depth generalizing id path with
  | zero => exact Ordered.nil
  | succ depth ih =>
    by_cases has : g.Has id
    · have deep' : g.nodes.length < depth + (id :: path).length := by
        rw [List.length_cons]
        omega
      rw [unrolled_of_has has]
      refine Ordered.snoc ?_ ?_
      -- One producer after the other, each with all that is below it.
      · have parts : ∀ sources : List String, sources ⊆ g.producers id →
            g.Ordered (sources.flatMap (g.unrolled depth)) := by
          intro sources sub
          induction sources with
          | nil => exact Ordered.nil
          | cons source sources ih' =>
            have edge : g.Reads id source := sub List.mem_cons_self
            rw [List.flatMap_cons]
            exact (ih (acyclic.of_reads edge) (trail.step acyclic edge) deep').append
              (ih' fun k mem => sub (List.mem_cons_of_mem source mem))
        exact parts _ (List.Subset.refl _)
      · intro source edge hasSource
        exact List.mem_flatMap.mpr ⟨source, edge,
          mem_unrolled (acyclic.of_reads edge) (trail.step acyclic edge) deep'
            ReflTransGen.refl hasSource⟩
    · rw [unrolled_of_not_has has]
      exact Ordered.nil

/-- In a graph without cycles below a root, the depth-first order is a schedule. -/
theorem isSchedule_postorder (acyclic : g.AcyclicFrom root) :
    g.IsSchedule root (g.postorder root) := by
  have deep : g.nodes.length < g.nodes.length + 1 + ([] : List String).length := by simp
  refine ⟨nodup_eraseDups _, ?_, (ordered_unrolled acyclic (Trail.nil g root) deep).eraseDups⟩
  intro id
  rw [postorder, List.mem_eraseDups]
  constructor
  · exact depends_of_mem_unrolled
  · rintro ⟨depends, has⟩
    exact mem_unrolled acyclic (Trail.nil g root) deep depends has

end Texture.Graph
