/- Texture/Proofs/Evaluate/Calls
   digest: The calls that a walk makes. The nodes they are inside of are a way down from the root
   that meets no node twice, and none of them is left without fuel. -/

import Texture.Proofs.Evaluate.Schedule

set_option autoImplicit false
set_option relaxedAutoImplicit false

namespace Texture.Evaluate

/-- A call of the walk: its fuel, the stack of nodes that it is inside of with the innermost first,
the id that it is for, what is done, and the session in which it begins. -/
structure Call where
  fuel : Nat
  path : List String
  id : String
  memo : Memo
  session : Session

def Call.run (c : Call) (g : Graph) (canvas : Canvas) : Work (Artifact × Memo) :=
  visit g.index canvas c.fuel c.path c.id c.memo

/-- The calls that a walk from a session makes, whether or not it succeeds in the end. -/
inductive Entered (g : Graph) (canvas : Canvas) (root : Option String) (s : Session) : Call → Prop
  | root {n : Node} (start : root? g root = some n) :
      Entered g canvas root s ⟨g.nodes.length + 1, [], n.id, [], s⟩
  /-- A call that is the first for a node asks for what feeds one of its inputs, once the inputs in
  front of that one are filled. -/
  | producer {fuel : Nat} {path : List String} {id source : String} {memo later : Memo}
      {t u : Session} {n : Node} {before after : List Handle} {handle : Handle} {inputs : Inputs}
      (caller : Entered g canvas root s ⟨fuel + 1, path, id, memo, t⟩)
      (fresh : memo.lookup id = none) (found : g.index.node? id = some n)
      (off : path.contains id = false) (split : n.operator.handles = before ++ handle :: after)
      (filled : (gather (visit g.index canvas fuel (id :: path)) g.index id before Inputs.none
        memo).Yields t (inputs, later) u)
      (connected : g.index.producer? id handle.name = some source) :
      Entered g canvas root s ⟨fuel, id :: path, source, later, u⟩

variable {g : Graph} {canvas : Canvas} {root : Option String} {s : Session}

private theorem reads_of_handle {n : Node} {id source : String} {handle : Handle}
    (found : g.node? id = some n) (mem : handle ∈ n.operator.handles)
    (connected : g.producer? id handle = some source) : g.Reads id source := by
  rw [Graph.reads_iff found]
  exact List.mem_filterMap.mpr ⟨handle, mem, connected⟩

/-- The stack of a call is a way that meets no node twice, and its fuel lasts for the rest of the
nodes. -/
theorem Entered.trail {c : Call} (entered : Entered g canvas root s c) :
    g.Trail c.path c.id ∧ c.fuel + c.path.length = g.nodes.length + 1 := by
  induction entered with
  | root start => exact ⟨Graph.Trail.nil g _, rfl⟩
  | @producer fuel path id source memo later t u n before after handle inputs caller fresh found
      off split filled connected ih =>
    obtain ⟨trail, sum⟩ := ih
    simp only at trail sum ⊢
    have outside : id ∉ path := by simpa using off
    have reads : g.Reads id source := by
      refine reads_of_handle ((g.index_node? id).symm.trans found) ?_
        ((g.index_producer? id handle.name).symm.trans connected)
      rw [split]
      simp
    refine ⟨trail.push outside reads, ?_⟩
    rw [List.length_cons]
    omega

theorem Entered.fuel_pos {c : Call} (entered : Entered g canvas root s c) : 0 < c.fuel := by
  obtain ⟨trail, sum⟩ := entered.trail
  have short := trail.length_le
  omega

private theorem gather_congr {visit visit' : String → Memo → Work (Artifact × Memo)} {id : String}
    (handles : List Handle)
    (same : ∀ source ∈ g.feeds id handles, ∀ memo, visit source memo = visit' source memo)
    (inputs : Inputs) (memo : Memo) :
    gather visit g.index id handles inputs memo = gather visit' g.index id handles inputs memo := by
  induction handles generalizing inputs memo with
  | nil => rfl
  | cons handle handles ih =>
    cases found : g.producer? id handle with
    | none =>
      rw [gather_cons_none found, gather_cons_none found]
      rw [Graph.feeds_cons_none found] at same
      exact ih same inputs memo
    | some source =>
      rw [gather_cons_some found, gather_cons_some found]
      rw [Graph.feeds_cons_some found] at same
      rw [same source List.mem_cons_self]
      congr 1
      funext p
      exact ih (fun k mem => same k (List.mem_cons_of_mem source mem)) _ _

private theorem visit_succ (fuel : Nat) (path : List String) (id : String) (memo : Memo)
    (trail : g.Trail path id) (deep : g.nodes.length < fuel + path.length) :
    visit g.index canvas (fuel + 1) path id memo = visit g.index canvas fuel path id memo := by
  induction fuel generalizing path id memo with
  | zero =>
    have short := trail.length_le
    omega
  | succ fuel ih =>
    rw [visit, visit, Graph.index_node?]
    cases memo.lookup id with
    | some a => rfl
    | none =>
      cases found : g.node? id with
      | none => rfl
      | some n =>
        simp only
        split
        · rfl
        · rename_i off
          have outside : id ∉ path := by simpa using off
          have below : ∀ source ∈ g.feeds id n.operator.handles, ∀ memo,
              visit g.index canvas (fuel + 1) (id :: path) source memo =
                visit g.index canvas fuel (id :: path) source memo := by
            intro source mem memo
            have edge : g.Reads id source := (Graph.reads_iff found).mpr mem
            refine ih (id :: path) source memo (trail.push outside edge) ?_
            rw [List.length_cons]
            omega
          rw [gather_congr n.operator.handles below]

theorem visit_of_le {fuel : Nat} (enough : g.nodes.length < fuel) (id : String) (memo : Memo) :
    visit g.index canvas fuel [] id memo =
      visit g.index canvas (g.nodes.length + 1) [] id memo := by
  induction enough with
  | refl => rfl
  | @step fuel enough ih =>
    rw [visit_succ fuel [] id memo (Graph.Trail.nil g id) enough, ih]

end Texture.Evaluate
