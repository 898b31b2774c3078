/- Texture/Proofs/Evaluate/Cycle
   digest: A walk always comes to an end, never succeeds above a cycle, and reports nodes of such
   cycles only. -/

import Texture.Proofs.Evaluate.Calls
import Texture.Proofs.Evaluate.Run
import Texture.Proofs.Operator.Fault

set_option autoImplicit false
set_option relaxedAutoImplicit false

namespace Texture.Evaluate

open Relation (ReflTransGen TransGen)
open Work (FailsWith)

/-- A node feeds itself, and another one depends on it. -/
def OnCycle (g : Graph) (root id : String) : Prop := g.Depends root id ∧ TransGen g.Reads id id

/-- A fault that tells of a cycle below a node, or one that an operator below it failed with. -/
def Explained (g : Graph) (rasterizer : Rasterizer) (root : String) (e : Fault) (t : Session) :
    Prop :=
  (∃ id, e = .cyclic id ∧ OnCycle g root id) ∨ e.OfPixels rasterizer t

variable {g : Graph} {canvas : Canvas} {id source : String}

private theorem Explained.of_reads {e : Fault} {t : Session} (edge : g.Reads id source)
    (h : Explained g canvas.rasterizer source e t) : Explained g canvas.rasterizer id e t := by
  rcases h with ⟨k, same, below, around⟩ | pixels
  · exact Or.inl ⟨k, same, ReflTransGen.head edge below, around⟩
  · exact Or.inr pixels

/-- Nothing is connected to inputs of a node but what feeds them. -/
def Fed (g : Graph) (id : String) (inputs : Inputs) : Prop :=
  ∀ handle a, inputs.get handle = some a → ∃ source, g.producer? id handle = some source

/-- Reasons that a walk can have to fail at an id: the id feeds itself, its operator fails with what
feeds it, or there is such a reason at an id that it reads. -/
structure Explains (g : Graph) (canvas : Canvas) (E : String → Fault → Session → Prop) : Prop where
  around : ∀ id t, TransGen g.Reads id id → E id (.cyclic id) t
  apply : ∀ id n inputs, g.node? id = some n → Fed g id inputs →
    ((Settings.ofBag n.operator n.bag).apply canvas inputs).FailsWith (E id)
  reads : ∀ id source e t, g.Reads id source → E source e t → E id e t

private theorem gather_failsWith {P : Fault → Session → Prop}
    {visit : String → Memo → Work (Artifact × Memo)} (handles : List Handle)
    (visits : ∀ source ∈ g.feeds id handles, ∀ memo, (visit source memo).FailsWith P)
    (inputs : Inputs) (memo : Memo) :
    (gather visit g.index id handles inputs memo).FailsWith P := by
  induction handles generalizing inputs memo with
  | nil => exact FailsWith.pure _
  | cons handle handles ih =>
    cases found : g.producer? id handle with
    | none =>
      rw [gather_cons_none found]
      rw [Graph.feeds_cons_none found] at visits
      exact ih visits inputs memo
    | some source =>
      rw [gather_cons_some found]
      rw [Graph.feeds_cons_some found] at visits
      refine (visits source List.mem_cons_self memo).bind fun p => ?_
      exact ih (fun k mem => visits k (List.mem_cons_of_mem source mem)) _ _

private theorem Fed.none (g : Graph) (id : String) : Fed g id Inputs.none := by
  intro handle a filled
  rw [Inputs.get_none] at filled
  simp at filled

private theorem gather_fed (visit : String → Memo → Work (Artifact × Memo)) (handles : List Handle)
    {inputs : Inputs} (fed : Fed g id inputs) (memo : Memo) :
    (gather visit g.index id handles inputs memo).Ensures fun p => Fed g id p.1 := by
  induction handles generalizing inputs memo with
  | nil => exact Work.Ensures.pure fed
  | cons handle handles ih =>
    cases found : g.producer? id handle with
    | none =>
      rw [gather_cons_none found]
      exact ih fed memo
    | some source =>
      rw [gather_cons_some found]
      refine (Work.Ensures.trivial _).bind fun p _ => ih ?_ p.2
      intro other a filled
      rw [Inputs.get_set] at filled
      by_cases same : handle = other
      · subst same
        exact ⟨source, found⟩
      · rw [if_neg same] at filled
        exact fed other a filled

/-- A visit whose stack leads down to it without repetition fails for what explains it. -/
private theorem visit_explained {E : String → Fault → Session → Prop}
    (explains : Explains g canvas E)
    (fuel : Nat) (path : List String) (id : String) (memo : Memo) (trail : g.Trail path id)
    (deep : g.nodes.length < fuel + path.length) :
    (visit g.index canvas fuel path id memo).FailsWith (E id) := by
  induction fuel generalizing path id memo with
  | zero =>
    -- Without fuel the way down would have met more nodes than there are.
    have short := trail.length_le
    omega
  | succ fuel ih =>
    rw [visit, Graph.index_node?]
    cases memo.lookup id with
    | some a => exact FailsWith.pure _
    | none =>
      cases found : g.node? id with
      | none => exact FailsWith.pure _
      | some n =>
        simp only
        split
        · -- The stack leads from the id back to it.
          rename_i inside
          have mem : id ∈ path := by simpa using inside
          exact FailsWith.throw fun t => explains.around id t (trail.leads id mem)
        · rename_i off
          have outside : id ∉ path := by simpa using off
          refine FailsWith.bind_ensures (gather_failsWith n.operator.handles ?_ Inputs.none memo)
            (gather_fed _ n.operator.handles (Fed.none g id) memo) ?_
          · intro source mem memo
            have edge : g.Reads id source := (Graph.reads_iff found).mpr mem
            have deep' : g.nodes.length < fuel + (id :: path).length := by
              rw [List.length_cons]
              omega
            exact (ih (id :: path) source memo (trail.push outside edge) deep').mono
              fun e t => explains.reads id source e t edge
          · intro p fed
            exact (explains.apply id n p.1 found fed).bind fun a => FailsWith.pure _

theorem artifact_explained {E : String → Fault → Session → Prop} (explains : Explains g canvas E)
    {root : Option String} {n : Node} (start : root? g root = some n) :
    (artifact g canvas root).FailsWith (E n.id) := by
  simp only [artifact, walk, start]
  refine FailsWith.bind ?_ fun p => FailsWith.pure _
  exact visit_explained explains _ [] n.id [] (Graph.Trail.nil g n.id) (by simp)

private theorem explained_explains (g : Graph) (canvas : Canvas) :
    Explains g canvas (Explained g canvas.rasterizer) where
  around id _ around := Or.inl ⟨id, rfl, ReflTransGen.refl, around⟩
  apply _ _ inputs _ _ := (Settings.apply_failsWith _ canvas inputs).mono fun _ _ => Or.inr
  reads _ _ _ _ := Explained.of_reads

private theorem visit_failsWith (fuel : Nat) (path : List String) (id : String) (memo : Memo)
    (trail : g.Trail path id) (deep : g.nodes.length < fuel + path.length) :
    (visit g.index canvas fuel path id memo).FailsWith (Explained g canvas.rasterizer id) :=
  visit_explained (explained_explains g canvas) fuel path id memo trail deep

/-- A walk comes to an end on every graph: the nodes that a call is inside of are a way down that
meets none twice, every call has fuel, and more fuel would change nothing. It does not succeed if
something below its root feeds itself. If it reports a node as feeding itself, then the node does so
and lies below the root, unless this is what the painter answered to the last wish. -/
theorem artifact_cycles (g : Graph) (canvas : Canvas) (root : Option String) (s : Session) :
    (∀ c, Entered g canvas root s c → g.Trail c.path c.id ∧ 0 < c.fuel) ∧
      (∀ n, root? g root = some n → ∀ fuel, g.nodes.length < fuel →
        visit g.index canvas fuel [] n.id [] = walk g canvas root) ∧
      (∀ n id, root? g root = some n → OnCycle g n.id id →
        ∀ a t, ¬ (artifact g canvas root).Yields s a t) ∧
      (∀ id t, (artifact g canvas root).after s = (.error (.cyclic id), t) →
        (∃ n, root? g root = some n ∧ OnCycle g n.id id) ∨
          t.Refused canvas.rasterizer (.cyclic id)) := by
  refine ⟨?_, ?_, ?_, ?_⟩
  · intro c entered
    exact ⟨entered.trail.1, entered.fuel_pos⟩
  · intro n start fuel enough
    simp only [walk, start]
    exact visit_of_le enough n.id []
  · rintro n id start ⟨below, around⟩ a t yields
    simp only [artifact, walk, start, Work.yields_bind] at yields
    obtain ⟨p, u, visited, -⟩ := yields
    have acyclic : g.AcyclicFrom n.id :=
      (visit_acyclic _ [] n.id [] (by simp [AcyclicMemo, not_done_nil]) s p u visited).1
    exact acyclic id below around
  · intro id t failed
    cases start : root? g root with
    | none => simp [artifact, walk, start] at failed
    | some n =>
      have fails : (artifact g canvas root).FailsWith (Explained g canvas.rasterizer n.id) := by
        simp only [artifact, walk, start]
        refine FailsWith.bind ?_ fun p => FailsWith.pure _
        exact visit_failsWith _ [] n.id [] (Graph.Trail.nil g n.id) (by simp)
      rcases fails s _ t failed with ⟨k, same, cycle⟩ | ⟨text, same⟩ | refused
      · cases same
        exact Or.inl ⟨n, rfl, cycle⟩
      · simp at same
      · exact Or.inr refused

/-- Three nodes in a ring below an output, a diamond beside it, and a ring that only closes through
an input that is not read. -/
def ring : Graph where
  nodes := [⟨"out", .output, []⟩, ⟨"sum", .add, []⟩, ⟨"dim", .alpha, []⟩, ⟨"turn", .rotate, []⟩,
    ⟨"glow", .glow, []⟩, ⟨"base", .circle, []⟩]
  edges := [⟨"1", "sum", "out", "out", "in"⟩, ⟨"2", "base", "out", "sum", "a"⟩,
    ⟨"3", "dim", "out", "sum", "b"⟩, ⟨"4", "turn", "out", "dim", "in"⟩,
    ⟨"5", "glow", "out", "turn", "in"⟩, ⟨"6", "dim", "out", "glow", "in"⟩,
    ⟨"7", "sum", "out", "base", "in"⟩]

theorem artifact_ring :
    (artifact ring ⟨.standard, fun _ _ => .error (.other "")⟩ none).after Session.start =
        (.error (.cyclic "dim"), Session.start) ∧
      OnCycle ring "out" "dim" ∧
      ∀ a t, ¬ (artifact ring ⟨.standard, fun _ _ => .error (.other "")⟩ none).Yields
        Session.start a t := by
  have run : (artifact ring ⟨.standard, fun _ _ => .error (.other "")⟩ none).after Session.start =
      (.error (.cyclic "dim"), Session.start) := rfl
  obtain ⟨-, -, refuses, reports⟩ :=
    artifact_cycles ring ⟨.standard, fun _ _ => .error (.other "")⟩ none Session.start
  rcases reports "dim" Session.start run with ⟨n, start, cycle⟩ | ⟨earlier, request, -, answered⟩
  · have first : n.id = "out" := by
      have same : root? ring none = some ⟨"out", .output, []⟩ := rfl
      rw [same, Option.some.injEq] at start
      rw [← start]
    rw [first] at cycle
    exact ⟨run, cycle, refuses _ "dim" rfl cycle⟩
  · simp at answered

/-- A grey canvas, bent round. -/
def bentSwatch : Graph where
  nodes := [⟨"out", .output, []⟩, ⟨"bend", .polar, []⟩, ⟨"grey", .value, []⟩]
  edges := [⟨"1", "bend", "out", "out", "in"⟩, ⟨"2", "grey", "out", "bend", "in"⟩]

/-- A painter that tells of a cycle whatever it is asked for. -/
def haunted : Canvas := ⟨.standard, fun _ _ => .error (.cyclic "ghost")⟩

/-- What a painter tells of is passed on as it is, without a cycle anywhere. -/
theorem artifact_ghost :
    (∃ t, (artifact bentSwatch haunted none).after Session.start =
        (.error (.cyclic "ghost"), t)) ∧
      ∀ root id, ¬ OnCycle bentSwatch root id := by
  refine ⟨⟨_, rfl⟩, ?_⟩
  rintro root id ⟨below, around⟩
  have acyclic : bentSwatch.AcyclicFrom root := by
    refine Graph.AcyclicFrom.of_ranks (fun id => (["grey", "bend", "out"].idxOf? id).getD 0) ?_
    decide +kernel
  exact acyclic id below around

end Texture.Evaluate
