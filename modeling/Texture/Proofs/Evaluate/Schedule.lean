/- Texture/Proofs/Evaluate/Schedule
   digest: Evaluation is a plain schedule: below a root without cycles, each node once, in the
   depth-first order of the graph. -/

import Texture.Evaluate
import Texture.Proofs.Graph.Order
import Texture.Proofs.Work

set_option autoImplicit false
set_option relaxedAutoImplicit false

namespace Texture

def Inputs.get (inputs : Inputs) : Handle → Option Artifact
  | .only => inputs.only
  | .first => inputs.first
  | .second => inputs.second

theorem Inputs.get_none (handle : Handle) : Inputs.none.get handle = .none := by
  cases handle <;> rfl

theorem Inputs.get_set (inputs : Inputs) (a : Artifact) (handle other : Handle) :
    (inputs.set a handle).get other = if handle = other then some a else inputs.get other := by
  cases handle <;> cases other <;> rfl

end Texture

namespace Texture.Evaluate

open Relation (ReflTransGen)

/-- What an id has come to; an id without an artifact stands for nothing. -/
def answer (memo : Memo) (id : String) : Artifact := (memo.lookup id).getD .empty

def fill (g : Graph) (memo : Memo) (id : String) (inputs : Inputs) (handle : Handle) : Inputs :=
  match g.producer? id handle with
  | some source => inputs.set (answer memo source) handle
  | none => inputs

def inputsFrom (g : Graph) (memo : Memo) (n : Node) : Inputs :=
  n.operator.handles.foldl (fill g memo n.id) Inputs.none

private theorem get_foldl_fill (g : Graph) (memo : Memo) (id : String) (handles : List Handle)
    (inputs : Inputs) (handle : Handle) :
    (handles.foldl (fill g memo id) inputs).get handle =
      if handle ∈ handles then
        ((g.producer? id handle).map (answer memo)).or (inputs.get handle)
      else inputs.get handle := by
  induction handles generalizing inputs with
  | nil => simp
  | cons other handles ih =>
    rw [List.foldl_cons, ih, fill]
    cases found : g.producer? id other with
    | none =>
      by_cases same : handle = other
      · subst same
        simp [found]
      · simp [same]
    | some source =>
      rw [Inputs.get_set]
      by_cases same : other = handle
      · subst same
        simp [found]
      · have flipped : handle ≠ other := fun h => same h.symm
        simp [same, flipped]

theorem get_inputsFrom (g : Graph) (memo : Memo) (n : Node) (handle : Handle) :
    (inputsFrom g memo n).get handle =
      if handle ∈ n.operator.handles then (g.producer? n.id handle).map (answer memo)
      else none := by
  rw [inputsFrom, get_foldl_fill, Inputs.get_none, Option.or_none]

/-- Applies the operator of a node, once, and notes what it makes. -/
def perform (g : Graph) (canvas : Canvas) (memo : Memo) (id : String) : Work Memo := do
  match g.node? id with
  | some n =>
    let a ← (Settings.ofBag n.operator n.bag).apply canvas (inputsFrom g memo n)
    return (id, a) :: memo
  | none => return memo

def schedule (g : Graph) (canvas : Canvas) (root : String) : Work Memo :=
  (g.postorder root).foldlM (perform g canvas) []

def Done (memo : Memo) (id : String) : Prop := (memo.lookup id).isSome

instance (memo : Memo) (id : String) : Decidable (Done memo id) :=
  inferInstanceAs (Decidable (_ = true))

def settle (g : Graph) (canvas : Canvas) (memo : Memo) (id : String) : Work Memo :=
  if Done memo id then return memo else perform g canvas memo id

variable {g : Graph} {canvas : Canvas} {memo later : Memo} {id : String}

@[simp] theorem done_cons (memo : Memo) (id : String) (a : Artifact) (k : String) :
    Done ((id, a) :: memo) k ↔ k = id ∨ Done memo k := by
  by_cases h : k = id
  · simp [Done, h]
  · simp [Done, h, Table.lookup_cons_of_ne h]

theorem not_done_nil (id : String) : ¬ Done [] id := by simp [Done]

theorem Done.lookup (h : Done memo id) : memo.lookup id = some (answer memo id) := by
  obtain ⟨a, found⟩ := Option.isSome_iff_exists.mp h
  simp [answer, found]

theorem answer_of_not_done (h : ¬ Done memo id) : answer memo id = .empty := by
  have missing : memo.lookup id = none := Option.not_isSome_iff_eq_none.mp h
  simp [answer, missing]

/-- A later memo answers as an earlier one where that answers. -/
def Extends (memo later : Memo) : Prop := ∀ id, Done memo id → later.lookup id = memo.lookup id

theorem Extends.refl (memo : Memo) : Extends memo memo := fun _ _ => rfl

private theorem Extends.done (h : Extends memo later) (done : Done memo id) : Done later id := by
  rw [Done, h id done]
  exact done

private theorem Extends.trans {last : Memo} (h : Extends memo later) (h' : Extends later last) :
    Extends memo last := by
  intro k done
  rw [h' k (h.done done), h k done]

private theorem Extends.cons (fresh : ¬ Done memo id) (a : Artifact) :
    Extends memo ((id, a) :: memo) := by
  intro k done
  have apart : k ≠ id := by
    rintro rfl
    exact fresh done
  exact Table.lookup_cons_of_ne apart a memo

/-- Only nodes have artifacts, and with a node everything that feeds it. -/
structure Closed (g : Graph) (memo : Memo) : Prop where
  has : ∀ id, Done memo id → g.Has id
  reads : ∀ id, Done memo id → ∀ source, g.Reads id source → g.Has source → Done memo source

theorem Closed.nil (g : Graph) : Closed g [] :=
  ⟨fun id done => absurd done (not_done_nil id), fun id done => absurd done (not_done_nil id)⟩

private theorem Closed.below (closed : Closed g memo) (done : Done memo id) {k : String}
    (depends : g.Depends id k) (has : g.Has k) : Done memo k := by
  induction depends with
  | refl => exact done
  | tail _ edge ih => exact closed.reads _ (ih edge.has) _ edge has

/-- What performing some nodes in their order leaves. -/
structure Performed (g : Graph) (memo : Memo) (ids : List String) (later : Memo) : Prop where
  closed : Closed g later
  extend : Extends memo later
  done_iff : ∀ id, Done later id ↔ Done memo id ∨ id ∈ ids

theorem Performed.trans {ids others : List String} {middle last : Memo}
    (h : Performed g memo ids middle) (h' : Performed g middle others last) :
    Performed g memo (ids ++ others) last := by
  refine ⟨h'.closed, h.extend.trans h'.extend, ?_⟩
  intro k
  rw [h'.done_iff, h.done_iff, List.mem_append, or_assoc]

private theorem perform_ensures (has : g.Has id) :
    (perform g canvas memo id).Ensures fun later => ∃ a, later = (id, a) :: memo := by
  obtain ⟨n, found⟩ := Graph.has_iff.mp has
  simp only [perform, found]
  exact (Work.Ensures.trivial _).bind fun a _ => Work.Ensures.pure ⟨a, rfl⟩

theorem settle_ensures (closed : Closed g memo) (has : g.Has id)
    (ready : ∀ source, g.Reads id source → g.Has source → Done memo source) :
    (settle g canvas memo id).Ensures (Performed g memo [id]) := by
  unfold settle
  split
  · rename_i done
    refine Work.Ensures.pure ⟨closed, Extends.refl memo, ?_⟩
    intro k
    rw [List.mem_singleton]
    constructor
    · exact Or.inl
    · rintro (h | rfl)
      · exact h
      · exact done
  · rename_i fresh
    intro s later t yields
    obtain ⟨a, rfl⟩ := perform_ensures has s later t yields
    refine ⟨⟨?_, ?_⟩, Extends.cons fresh a, ?_⟩
    · intro k done
      rcases (done_cons memo id a k).mp done with rfl | done
      · exact has
      · exact closed.has k done
    · intro k done source edge hasSource
      refine (done_cons memo id a source).mpr (Or.inr ?_)
      rcases (done_cons memo id a k).mp done with rfl | done
      · exact ready source edge hasSource
      · exact closed.reads k done source edge hasSource
    · intro k
      rw [done_cons, List.mem_singleton, Or.comm]

private theorem settleAll_ensures (closed : Closed g memo) (ids : List String)
    (has : ∀ id ∈ ids, g.Has id) (ordered : g.Ordered ids) :
    (ids.foldlM (settle g canvas) memo).Ensures (Performed g memo ids) := by
  refine Work.Ensures.foldlM ⟨closed, Extends.refl memo, by simp⟩ ids ?_
  intro before id after middle split performed
  have hasId : g.Has id := has id (by simp [split])
  have ready : ∀ source, g.Reads id source → g.Has source → Done middle source := by
    intro source edge hasSource
    exact (performed.done_iff source).mpr (Or.inr (ordered before id after split source edge hasSource))
  intro s last t yields
  exact performed.trans (settle_ensures performed.closed hasId ready s last t yields)

private theorem settleAll_of_done (ids : List String) (done : ∀ id ∈ ids, Done memo id) :
    ids.foldlM (settle g canvas) memo = pure memo := by
  induction ids with
  | nil => rfl
  | cons id ids ih =>
    rw [List.foldlM_cons, settle, if_pos (done id List.mem_cons_self), pure_bind]
    exact ih fun k mem => done k (List.mem_cons_of_mem id mem)

private theorem settleAll_eq_performAll (ids : List String) (has : ∀ id ∈ ids, g.Has id)
    (ordered : g.Ordered ids) :
    ids.foldlM (settle g canvas) [] = ids.eraseDups.foldlM (perform g canvas) [] := by
  induction ids using List.reverseRecOn with
  | nil => rfl
  | append_singleton ids id ih =>
    have hasFront : ∀ k ∈ ids, g.Has k := fun k mem => has k (List.mem_append_left _ mem)
    have front : (ids.foldlM (settle g canvas) []).Ensures (Performed g [] ids) :=
      settleAll_ensures (Closed.nil g) ids hasFront ordered.front
    have last : ∀ memo, Performed g [] ids memo →
        [id].foldlM (settle g canvas) memo =
          if id ∈ ids then pure memo else perform g canvas memo id := by
      intro memo performed
      have done_iff : Done memo id ↔ id ∈ ids := by
        simp [performed.done_iff, not_done_nil]
      simp only [List.foldlM_cons, List.foldlM_nil, bind_pure, settle, done_iff]
    rw [List.foldlM_append, Work.bind_congr front last, ih hasFront ordered.front,
      Graph.eraseDups_snoc]
    by_cases mem : id ∈ ids
    · simp [mem]
    · simp [mem, List.foldlM_append]

/-- Nodes below a source that is settled when they are, one of them the source if it exists. -/
structure Covers (g : Graph) (source : String) (ids : List String) : Prop where
  has : ∀ k ∈ ids, g.Has k
  ordered : g.Ordered ids
  source_mem : g.Has source → source ∈ ids

def Settles (g : Graph) (canvas : Canvas) (visit : Memo → Work (Artifact × Memo))
    (source : String) (ids : List String) : Prop :=
  ∀ memo, Closed g memo →
    visit memo = (fun memo => (answer memo source, memo)) <$> ids.foldlM (settle g canvas) memo

private theorem Performed.answer_eq {source : String} {ids others : List String} {first last : Memo}
    (covers : Covers g source ids) (h : Performed g memo ids first)
    (h' : Performed g first others last) : answer last source = answer first source := by
  by_cases has : g.Has source
  · have done : Done first source := (h.done_iff source).mpr (Or.inr (covers.source_mem has))
    rw [answer, answer, h'.extend source done]
  · have fresh : ¬ Done first source := fun done => has (h.closed.has source done)
    have fresh' : ¬ Done last source := fun done => has (h'.closed.has source done)
    rw [answer_of_not_done fresh, answer_of_not_done fresh']

private theorem ordered_flatMap {sources : List String} {below : String → List String}
    (covers : ∀ source ∈ sources, Covers g source (below source)) :
    g.Ordered (sources.flatMap below) := by
  induction sources with
  | nil => exact Graph.Ordered.nil
  | cons source sources ih =>
    rw [List.flatMap_cons]
    exact (covers source List.mem_cons_self).ordered.append
      (ih fun k mem => covers k (List.mem_cons_of_mem source mem))

section

variable {visit : String → Memo → Work (Artifact × Memo)} {handle : Handle} {source : String}

theorem gather_cons_none (found : g.producer? id handle = none) (handles : List Handle)
    (inputs : Inputs) (memo : Memo) :
    gather visit g.index id (handle :: handles) inputs memo =
      gather visit g.index id handles inputs memo := by
  have edge : g.index.producer? id handle.name = none :=
    (g.index_producer? id handle.name).trans found
  rw [gather, edge]

theorem gather_cons_some (found : g.producer? id handle = some source) (handles : List Handle)
    (inputs : Inputs) (memo : Memo) :
    gather visit g.index id (handle :: handles) inputs memo =
      visit source memo >>= fun p =>
        gather visit g.index id handles (inputs.set p.1 handle) p.2 := by
  have edge : g.index.producer? id handle.name = some source :=
    (g.index_producer? id handle.name).trans found
  rw [gather, edge]

end

private theorem gather_eq (visit : String → Memo → Work (Artifact × Memo))
    (below : String → List String) (id : String) (handles : List Handle)
    (covers : ∀ source ∈ g.feeds id handles, Covers g source (below source))
    (settles : ∀ source ∈ g.feeds id handles, Settles g canvas (visit source) source (below source))
    (inputs : Inputs) (memo : Memo) (closed : Closed g memo) :
    gather visit g.index id handles inputs memo =
      (fun memo => (handles.foldl (fill g memo id) inputs, memo)) <$>
        ((g.feeds id handles).flatMap below).foldlM (settle g canvas) memo := by
  induction handles generalizing inputs memo with
  | nil => simp [gather, Graph.feeds]
  | cons handle handles ih =>
    cases found : g.producer? id handle with
    | none =>
      rw [gather_cons_none found]
      rw [Graph.feeds_cons_none found] at covers settles ⊢
      simp only [List.foldl_cons, fill, found]
      exact ih covers settles inputs memo closed
    | some source =>
      rw [gather_cons_some found]
      rw [Graph.feeds_cons_some found] at covers settles ⊢
      have coversHead := covers source List.mem_cons_self
      have coversTail : ∀ k ∈ g.feeds id handles, Covers g k (below k) :=
        fun k mem => covers k (List.mem_cons_of_mem source mem)
      have settlesTail : ∀ k ∈ g.feeds id handles, Settles g canvas (visit k) k (below k) :=
        fun k mem => settles k (List.mem_cons_of_mem source mem)
      have hasTail : ∀ k ∈ (g.feeds id handles).flatMap below, g.Has k := by
        intro k mem
        obtain ⟨j, memFeeds, memBelow⟩ := List.mem_flatMap.mp mem
        exact (coversTail j memFeeds).has k memBelow
      simp only [settles source List.mem_cons_self memo closed, List.flatMap_cons,
        List.foldlM_append, map_bind, bind_map_left]
      refine Work.bind_congr
        (settleAll_ensures closed (below source) coversHead.has coversHead.ordered) ?_
      intro middle performed
      rw [ih coversTail settlesTail _ middle performed.closed]
      refine Work.map_congr
        (settleAll_ensures performed.closed _ hasTail (ordered_flatMap coversTail)) ?_
      intro last performed'
      -- The answer of the first source outlasts what is settled for the others.
      simp only [List.foldl_cons, fill, found, performed.answer_eq coversHead performed']

private theorem covers_unrolled {depth : Nat} {path : List String} (acyclic : g.AcyclicFrom id)
    (trail : g.Trail path id) (deep : g.nodes.length < depth + path.length) :
    Covers g id (g.unrolled depth id) :=
  ⟨fun _ mem => (Graph.depends_of_mem_unrolled mem).2, Graph.ordered_unrolled acyclic trail deep,
    Graph.mem_unrolled acyclic trail deep ReflTransGen.refl⟩

/-- Without cycles, a visit settles the nodes below an id in their order and answers. -/
private theorem visit_settles (fuel : Nat) (path : List String) (acyclic : g.AcyclicFrom id)
    (trail : g.Trail path id) (deep : g.nodes.length < fuel + path.length) :
    Settles g canvas (visit g.index canvas fuel path id) id (g.unrolled fuel id) := by
  induction fuel generalizing path id with
  | zero =>
    -- Without fuel the way down would have met more nodes than there are.
    have short := trail.length_le
    omega
  | succ fuel ih =>
    intro memo closed
    rw [visit, Graph.index_node?]
    by_cases done : Done memo id
    -- What is below a node that is done is done too, so settling it costs nothing.
    · have below : ∀ k ∈ g.unrolled (fuel + 1) id, Done memo k := by
        intro k mem
        have depends := Graph.depends_of_mem_unrolled mem
        exact closed.below done depends.1 depends.2
      simp only [done.lookup, settleAll_of_done _ below, map_pure]
    · have missing : memo.lookup id = none := Option.not_isSome_iff_eq_none.mp done
      simp only [missing]
      by_cases has : g.Has id
      · obtain ⟨n, found⟩ := Graph.has_iff.mp has
        have start : n.id = id := Graph.node?_id found
        have producers := Graph.producers_of_node? found
        have off : path.contains id = false := by
          simpa using trail.not_mem acyclic
        have deep' : g.nodes.length < fuel + (id :: path).length := by
          rw [List.length_cons]
          omega
        have below : ∀ source ∈ g.feeds id n.operator.handles,
            g.AcyclicFrom source ∧ g.Trail (id :: path) source := by
          intro source mem
          have edge : g.Reads id source := (Graph.reads_iff found).mpr mem
          exact ⟨acyclic.of_reads edge, trail.step acyclic edge⟩
        have covers : ∀ source ∈ g.feeds id n.operator.handles,
            Covers g source (g.unrolled fuel source) :=
          fun source mem => covers_unrolled (below source mem).1 (below source mem).2 deep'
        have settles : ∀ source ∈ g.feeds id n.operator.handles,
            Settles g canvas (visit g.index canvas fuel (id :: path) source) source
              (g.unrolled fuel source) :=
          fun source mem => ih (id :: path) (below source mem).1 (below source mem).2 deep'
        have hasBelow : ∀ k ∈ (g.feeds id n.operator.handles).flatMap (g.unrolled fuel),
            g.Has k := by
          intro k mem
          obtain ⟨source, memFeeds, memBelow⟩ := List.mem_flatMap.mp mem
          exact (covers source memFeeds).has k memBelow
        simp only [found, off, Bool.false_eq_true, if_false, Graph.unrolled_of_has has, producers,
          gather_eq _ _ id n.operator.handles covers settles Inputs.none memo closed,
          List.foldlM_append, bind_map_left, map_bind]
        refine Work.bind_congr
          (settleAll_ensures closed _ hasBelow (ordered_flatMap covers)) ?_
        intro middle performed
        -- If settling its producers had made the node, it would depend on itself.
        have fresh : ¬ Done middle id := by
          intro again
          rcases (performed.done_iff id).mp again with again | mem
          · exact done again
          · obtain ⟨source, memFeeds, memBelow⟩ := List.mem_flatMap.mp mem
            have edge : g.Reads id source := (Graph.reads_iff found).mpr memFeeds
            exact acyclic.not_depends edge (Graph.depends_of_mem_unrolled memBelow).1
        simp [settle, fresh, perform, found, inputsFrom, start, answer]
      · have none := Graph.not_has_iff.mp has
        simp [none, Graph.unrolled_of_not_has has, answer, missing]

theorem walk_eq_schedule {root : Option String} {n : Node} (start : root? g root = some n)
    (acyclic : g.AcyclicFrom n.id) :
    walk g canvas root = (fun memo => (answer memo n.id, memo)) <$> schedule g canvas n.id := by
  have deep : g.nodes.length < g.nodes.length + 1 + ([] : List String).length := by simp
  have trail := Graph.Trail.nil g n.id
  have covers := covers_unrolled acyclic trail deep
  have visited : Settles g canvas (visit g.index canvas (g.nodes.length + 1) [] n.id) n.id
      (g.unrolled (g.nodes.length + 1) n.id) :=
    visit_settles (g.nodes.length + 1) [] acyclic trail deep
  simp only [walk, start, visited [] (Closed.nil g),
    settleAll_eq_performAll _ covers.has covers.ordered, schedule, Graph.postorder]

end Texture.Evaluate
