/- Texture/Proofs/Evaluate/Run
   digest: A run that succeeds met no cycle, and what each operator keeps, the run keeps. -/

import Texture.Proofs.Evaluate.Schedule

set_option autoImplicit false
set_option relaxedAutoImplicit false

namespace Texture.Evaluate

variable {g : Graph} {canvas : Canvas}

/-- Nothing below the nodes that are done feeds itself. -/
def AcyclicMemo (g : Graph) (memo : Memo) : Prop := ∀ id, Done memo id → g.AcyclicFrom id

private theorem gather_acyclic (visit : String → Memo → Work (Artifact × Memo)) (id : String)
    (handles : List Handle)
    (visits : ∀ source memo, AcyclicMemo g memo →
      (visit source memo).Ensures fun p => g.AcyclicFrom source ∧ AcyclicMemo g p.2)
    (inputs : Inputs) (memo : Memo) (known : AcyclicMemo g memo) :
    (gather visit g.index id handles inputs memo).Ensures fun p =>
      (∀ source ∈ g.feeds id handles, g.AcyclicFrom source) ∧ AcyclicMemo g p.2 := by
  induction handles generalizing inputs memo with
  | nil => exact Work.Ensures.pure ⟨by simp [Graph.feeds], known⟩
  | cons handle handles ih =>
    cases found : g.producer? id handle with
    | none =>
      rw [gather_cons_none found, Graph.feeds_cons_none found]
      exact ih inputs memo known
    | some source =>
      rw [gather_cons_some found, Graph.feeds_cons_some found]
      refine (visits source memo known).bind ?_
      rintro ⟨a, middle⟩ ⟨first, known'⟩ s p t yields
      obtain ⟨others, known''⟩ := ih _ middle known' s p t yields
      refine ⟨?_, known''⟩
      intro k mem
      rcases List.mem_cons.mp mem with rfl | mem
      · exact first
      · exact others k mem

theorem visit_acyclic (fuel : Nat) (path : List String) (id : String) (memo : Memo)
    (known : AcyclicMemo g memo) :
    (visit g.index canvas fuel path id memo).Ensures fun p =>
      g.AcyclicFrom id ∧ AcyclicMemo g p.2 := by
  induction fuel generalizing path id memo with
  | zero =>
    intro s p t yields
    simp [visit] at yields
  | succ fuel ih =>
    rw [visit, Graph.index_node?]
    by_cases done : Done memo id
    · simp only [done.lookup]
      exact Work.Ensures.pure ⟨known id done, known⟩
    · have missing : memo.lookup id = none := Option.not_isSome_iff_eq_none.mp done
      simp only [missing]
      cases found : g.node? id with
      | none =>
        have alone : g.AcyclicFrom id := by
          refine Graph.AcyclicFrom.of_producers ?_
          intro source edge
          exact absurd edge.has (Graph.not_has_iff.mpr found)
        exact Work.Ensures.pure ⟨alone, known⟩
      | some n =>
        have start : n.id = id := Graph.node?_id found
        simp only
        split
        · intro s p t yields
          simp at yields
        · refine (gather_acyclic _ id n.operator.handles (ih (id :: path)) Inputs.none memo
            known).bind ?_
          rintro ⟨inputs, middle⟩ ⟨sources, known'⟩
          refine (Work.Ensures.trivial _).bind fun a _ => Work.Ensures.pure ?_
          -- Nothing below the producers feeds itself, which the node would if it depended on
          -- itself.
          have acyclic : g.AcyclicFrom id := by
            refine Graph.AcyclicFrom.of_producers ?_
            intro source edge
            exact sources source ((Graph.reads_iff found).mp edge)
          refine ⟨acyclic, ?_⟩
          intro k doneK
          rcases (done_cons middle id a k).mp doneK with rfl | doneK
          · exact acyclic
          · exact known' k doneK

/-- What a run leaves: a closed memo, and the answer of its root, which is nothing if there is no
root. -/
structure Ran (g : Graph) (root : Option String) (a : Artifact) (memo : Memo) : Prop where
  closed : Closed g memo
  answer_eq : ∀ n, root? g root = some n → Done memo n.id ∧ a = answer memo n.id
  empty_eq : root? g root = none → a = .empty

private theorem root?_has {root : Option String} {n : Node} (start : root? g root = some n) :
    g.Has n.id := by
  have mem : n ∈ g.nodes := by
    cases root with
    | none => exact List.mem_of_find?_eq_some start
    | some id => exact List.mem_of_find?_eq_some start
  rw [Graph.Has, Graph.node?, List.find?_isSome]
  exact ⟨n, mem, by simp⟩

/-- What holds of nothing and is kept whenever an operator is applied to the answers of its
producers, holds after a run. -/
theorem walk_induction {P : Memo → Session → Prop} {root : Option String} {s t : Session}
    {a : Artifact} {memo : Memo} (yields : (walk g canvas root).Yields s (a, memo) t)
    (start : P [] s)
    (step : ∀ memo n s a t, Closed g memo → g.node? n.id = some n → ¬ Done memo n.id →
      (∀ source, g.Reads n.id source → g.Has source → Done memo source) → P memo s →
      ((Settings.ofBag n.operator n.bag).apply canvas (inputsFrom g memo n)).Yields s a t →
      P ((n.id, a) :: memo) t) :
    P memo t ∧ Ran g root a memo := by
  cases first : root? g root with
  | none =>
    simp only [walk, first, Work.yields_pure, Prod.mk.injEq] at yields
    obtain ⟨⟨rfl, rfl⟩, rfl⟩ := yields
    exact ⟨start, Closed.nil g, by simp [first], fun _ => rfl⟩
  | some n =>
    have acyclic : g.AcyclicFrom n.id := by
      have visited := yields
      simp only [walk, first] at visited
      exact (visit_acyclic _ [] n.id [] (by simp [AcyclicMemo, not_done_nil]) _ _ _ visited).1
    -- A walk that succeeds met no cycle, so it went through the schedule step by step.
    have planned := Graph.isSchedule_postorder acyclic
    rw [walk_eq_schedule first acyclic, Work.yields_map] at yields
    obtain ⟨memo', run, same⟩ := yields
    obtain ⟨rfl, rfl⟩ := Prod.mk.inj same
    have kept : Performed g [] (g.postorder n.id) memo' ∧ P memo' t := by
      refine Work.Yields.foldlM (P := fun ids memo s => Performed g [] ids memo ∧ P memo s) run
        ⟨⟨Closed.nil g, Extends.refl [], by simp⟩, start⟩ ?_
      rintro before id after middle s last t split ⟨performed, holds⟩ applied
      have has : g.Has id := ((planned.mem_iff id).mp (by rw [split]; simp)).2
      have fresh : ¬ Done middle id := by
        rw [performed.done_iff]
        have nodup := planned.nodup
        rw [split, List.nodup_append] at nodup
        simp only [not_done_nil, false_or]
        exact fun mem => nodup.2.2 id mem id List.mem_cons_self rfl
      -- The schedule lists producers first.
      have ready : ∀ source, g.Reads id source → g.Has source → Done middle source := by
        intro source edge hasSource
        exact (performed.done_iff source).mpr
          (Or.inr (planned.ordered before id after split source edge hasSource))
      have settled : (settle g canvas middle id).Yields s last t := by
        rwa [settle, if_neg fresh]
      refine ⟨performed.trans
        (settle_ensures performed.closed has ready s last t settled), ?_⟩
      obtain ⟨m, found⟩ := Graph.has_iff.mp has
      have same := Graph.node?_id found
      subst same
      simp only [perform, found, Work.yields_bind, Work.yields_pure] at applied
      obtain ⟨b, u, made, rfl, rfl⟩ := applied
      exact step middle m s b u performed.closed found fresh ready holds made
    refine ⟨kept.2, kept.1.closed, ?_, by simp [first]⟩
    intro m hm
    rw [first, Option.some.injEq] at hm
    subst hm
    have listed : n.id ∈ g.postorder n.id :=
      (planned.mem_iff n.id).mpr ⟨Relation.ReflTransGen.refl, root?_has first⟩
    exact ⟨(kept.1.done_iff n.id).mpr (Or.inr listed), rfl⟩

end Texture.Evaluate
