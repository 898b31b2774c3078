/- Texture/Graph/Index
   digest: Tables of a graph that answer which node has an id and which node feeds an input. -/

import Texture.Graph.Basic

set_option autoImplicit false
set_option relaxedAutoImplicit false

namespace Texture

abbrev Table (α : Type) := List (String × α)

namespace Table

variable {α : Type}

/-- Changes the value of a key; a key that has none yet is told so and goes to the end. -/
def upsert (key : String) (change : Option α → α) : Table α → Table α
  | [] => [(key, change none)]
  | (k, v) :: rows =>
    if k == key then (k, change (some v)) :: rows else (k, v) :: upsert key change rows

/-- Gives a key a value unless it has one. -/
def enter (key : String) (value : α) (rows : Table α) : Table α :=
  upsert key (fun old => old.getD value) rows

theorem lookup_cons_of_ne {key k : String} (h : k ≠ key) (v : α) (rows : Table α) :
    List.lookup k ((key, v) :: rows) = rows.lookup k := by
  rw [List.lookup_cons, beq_eq_false_iff_ne.mpr h]

private theorem lookup_upsert (key k : String) (change : Option α → α) (rows : Table α) :
    (upsert key change rows).lookup k =
      if k = key then some (change (rows.lookup key)) else rows.lookup k := by
  induction rows with
  | nil =>
    by_cases h : k = key
    · simp [upsert, h]
    · rw [upsert, lookup_cons_of_ne h, if_neg h]
  | cons row rows ih =>
    rcases row with ⟨other, v⟩
    by_cases hother : other = key
    · subst hother
      by_cases h : k = other
      · simp [upsert, h]
      · simp only [upsert, BEq.rfl, if_true, if_neg h, lookup_cons_of_ne h]
    · have apart : key ≠ other := fun same => hother same.symm
      simp only [upsert, beq_eq_false_iff_ne.mpr hother, Bool.false_eq_true, if_false,
        lookup_cons_of_ne apart]
      by_cases h : k = other
      · subst h
        simp [hother]
      · rw [lookup_cons_of_ne h, lookup_cons_of_ne h, ih]

private theorem lookup_enter (key k : String) (value : α) (rows : Table α) :
    (enter key value rows).lookup k =
      if k = key then some ((rows.lookup key).getD value) else rows.lookup k :=
  lookup_upsert key k _ rows

end Table

/-- The first node of each id, and for each node the producer that each of its inputs got first. -/
structure Index where
  nodes : Table Node
  inputs : Table (Table String)

namespace Index

def empty : Index := ⟨[], []⟩

def addNode (index : Index) (n : Node) : Index :=
  { index with nodes := Table.enter n.id n index.nodes }

def addEdge (index : Index) (e : Edge) : Index :=
  { index with
    inputs := Table.upsert e.target
      (fun row => Table.enter e.targetHandle e.source (row.getD [])) index.inputs }

def node? (index : Index) (id : String) : Option Node := index.nodes.lookup id

def producer? (index : Index) (target handle : String) : Option String := do
  (← index.inputs.lookup target).lookup handle

end Index

def Graph.index (g : Graph) : Index :=
  g.edges.foldl Index.addEdge (g.nodes.foldl Index.addNode Index.empty)

namespace Index

private theorem node?_addNode (index : Index) (n : Node) (id : String) :
    (index.addNode n).node? id = (index.node? id).or (if n.id = id then some n else none) := by
  simp only [node?, addNode, Table.lookup_enter]
  by_cases h : id = n.id
  · subst h
    cases index.nodes.lookup n.id <;> simp
  · have flipped : n.id ≠ id := fun same => h same.symm
    simp [h, flipped]

private theorem node?_addNodes (nodes : List Node) (index : Index) (id : String) :
    (nodes.foldl addNode index).node? id =
      (index.node? id).or (nodes.find? fun n => n.id == id) := by
  induction nodes generalizing index with
  | nil => simp
  | cons n nodes ih =>
    rw [List.foldl_cons, ih, node?_addNode, Option.or_assoc, List.find?_cons]
    by_cases h : n.id = id
    · simp [h]
    · simp [h, beq_eq_false_iff_ne.mpr h]

private theorem producer?_addEdge (index : Index) (e : Edge) (target handle : String) :
    (index.addEdge e).producer? target handle =
      (index.producer? target handle).or
        (if e.feeds target handle then some e.source else none) := by
  by_cases ht : target = e.target
  · subst ht
    by_cases hh : handle = e.targetHandle
    · subst hh
      cases row : index.inputs.lookup e.target with
      | none => simp [producer?, addEdge, Table.lookup_upsert, Table.lookup_enter, row, Edge.feeds]
      | some row' =>
        cases old : row'.lookup e.targetHandle <;>
          simp [producer?, addEdge, Table.lookup_upsert, Table.lookup_enter, row, old, Edge.feeds]
    · have flipped : e.targetHandle ≠ handle := fun same => hh same.symm
      cases row : index.inputs.lookup e.target <;>
        simp [producer?, addEdge, Table.lookup_upsert, Table.lookup_enter, row, hh, flipped,
          Edge.feeds]
  · have flipped : e.target ≠ target := fun same => ht same.symm
    simp [producer?, addEdge, Table.lookup_upsert, ht, flipped, Edge.feeds]

private theorem producer?_addEdges (edges : List Edge) (index : Index) (target handle : String) :
    (edges.foldl addEdge index).producer? target handle =
      (index.producer? target handle).or
        ((edges.find? fun e => e.feeds target handle).map Edge.source) := by
  induction edges generalizing index with
  | nil => simp
  | cons e edges ih =>
    rw [List.foldl_cons, ih, producer?_addEdge, Option.or_assoc, List.find?_cons]
    cases e.feeds target handle <;> simp

private theorem node?_addEdges (edges : List Edge) (index : Index) (id : String) :
    (edges.foldl addEdge index).node? id = index.node? id := by
  induction edges generalizing index with
  | nil => rfl
  | cons e edges ih => exact ih (index.addEdge e)

private theorem producer?_addNodes (nodes : List Node) (index : Index) (target handle : String) :
    (nodes.foldl addNode index).producer? target handle = index.producer? target handle := by
  induction nodes generalizing index with
  | nil => rfl
  | cons n nodes ih => exact ih (index.addNode n)

end Index

namespace Graph

/-- The tables and the lists agree on the node of an id. -/
@[simp] theorem index_node? (g : Graph) (id : String) : g.index.node? id = g.node? id := by
  rw [index, Index.node?_addEdges, Index.node?_addNodes]
  simp [Index.node?, Index.empty, node?]

/-- The tables and the lists agree on the producer of an input. -/
@[simp] theorem index_producer? (g : Graph) (target handle : String) :
    g.index.producer? target handle = (g.incoming? target handle).map Edge.source := by
  rw [index, Index.producer?_addEdges, Index.producer?_addNodes]
  simp [Index.producer?, Index.empty, incoming?]

end Graph

end Texture
