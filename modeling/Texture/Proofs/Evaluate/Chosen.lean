/- Texture/Proofs/Evaluate/Chosen
   digest: Which node a walk evaluates: the first one with the id of the node that was chosen, which
   is that node itself unless it stands behind another one with its id. -/

import Texture.Proofs.Evaluate.Made

set_option autoImplicit false
set_option relaxedAutoImplicit false

namespace Texture

namespace Graph

variable {g : Graph} {n : Node}

/-- No node in front of the first output has this id. -/
def OutputLeads (g : Graph) (id : String) : Prop :=
  ∀ m ∈ g.nodes.takeWhile (fun m => m.operator != .output), m.id ≠ id

private theorem output?_split (chosen : g.output? = some n) :
    n.operator = .output ∧ ∃ after,
      g.nodes = g.nodes.takeWhile (fun m => m.operator != .output) ++ n :: after ∧
        ∀ m ∈ g.nodes.takeWhile (fun m => m.operator != .output), m.operator ≠ .output := by
  obtain ⟨hit, before, after, split, first⟩ := List.find?_eq_some_iff_append.mp chosen
  have output : n.operator = .output := by simpa using hit
  have front : g.nodes.takeWhile (fun m => m.operator != .output) = before := by
    have all : ∀ m ∈ before, (m.operator != .output) = true := by simpa using first
    rw [split, List.takeWhile_append_of_pos all, List.takeWhile_cons_of_neg (by simp [output]),
      List.append_nil]
  refine ⟨output, after, ?_, ?_⟩
  · rw [front, split]
  · rw [front]
    simpa using first

private theorem node?_output (chosen : g.output? = some n) :
    g.node? n.id = some n ↔ g.OutputLeads n.id := by
  obtain ⟨output, after, split, others⟩ := output?_split chosen
  unfold OutputLeads
  generalize g.nodes.takeWhile (fun m => m.operator != .output) = before at split others ⊢
  rw [node?, split]
  constructor
  · intro found m held same
    obtain ⟨k, first⟩ : ∃ k, before.find? (fun m => m.id == n.id) = some k := by
      rw [← Option.isSome_iff_exists, List.find?_isSome]
      exact ⟨m, held, by simpa using same⟩
    rw [List.find?_append, first, Option.some_or, Option.some.injEq] at found
    subst found
    exact others k (List.mem_of_find?_eq_some first) output
  · intro leads
    rw [List.find?_eq_some_iff_append]
    exact ⟨by simp, before, after, rfl, fun m held => by simpa using leads m held⟩

private theorem operator_of_node?_output (chosen : g.output? = some n) {m : Node}
    (found : g.node? n.id = some m) : m.operator = .output ↔ m = n := by
  obtain ⟨output, after, split, others⟩ := output?_split chosen
  constructor
  · intro same
    rw [node?, split, List.find?_append] at found
    cases first : (g.nodes.takeWhile fun m => m.operator != .output).find?
        (fun m => m.id == n.id) with
    | some k =>
      rw [first, Option.some_or, Option.some.injEq] at found
      subst found
      exact absurd same (others k (List.mem_of_find?_eq_some first))
    | none =>
      rw [first, Option.none_or, List.find?_cons_of_pos (by simp), Option.some.injEq] at found
      exact found.symm
  · rintro rfl
    exact output

end Graph

namespace Evaluate

variable {g : Graph} {canvas : Canvas} {root : Option String} {memo : Memo} {n : Node}
  {a : Artifact} {s t : Session}

/-- The operator of a node makes an artifact of those of its producers. -/
def MadeBy (g : Graph) (canvas : Canvas) (memo : Memo) (n : Node) (a : Artifact) : Prop :=
  ∃ s t, ((Settings.ofBag n.operator n.bag).apply canvas (inputsFrom g memo n)).Yields s a t

/-- Whatever is done was made, by the first node with its id, of the artifacts of its producers, all
of which are done too unless they do not exist. -/
structure Founded (g : Graph) (canvas : Canvas) (memo : Memo) : Prop where
  closed : Closed g memo
  made : ∀ id, Done memo id → ∃ n, g.node? id = some n ∧ MadeBy g canvas memo n (answer memo id)

private theorem walk_founded (yields : (walk g canvas root).Yields s (a, memo) t) :
    Founded g canvas memo ∧ Ran g root a memo := by
  have run : (∀ id, Done memo id →
      ∃ n, g.node? id = some n ∧ MadeBy g canvas memo n (answer memo id)) ∧ Ran g root a memo := by
    refine walk_induction
      (P := fun memo _ => ∀ id, Done memo id →
        ∃ n, g.node? id = some n ∧ MadeBy g canvas memo n (answer memo id))
      yields (fun id done => absurd done (not_done_nil id)) ?_
    intro memo n s b t closed found fresh ready made applied id done
    have has : g.Has n.id := Graph.has_iff.mpr ⟨n, found⟩
    rcases (done_cons memo n.id b id).mp done with rfl | old
    · refine ⟨n, found, s, t, ?_⟩
      rw [inputsFrom_cons found fresh has ready, answer_cons, if_pos rfl]
      exact applied
    · obtain ⟨m, foundOld, s₁, t₁, older⟩ := made id old
      have same := Graph.node?_id foundOld
      subst same
      have apart : m.id ≠ n.id := by
        intro same
        exact fresh (same ▸ old)
      have kept := inputsFrom_cons (a := b) foundOld fresh has
        fun source edge hasSource => closed.reads m.id old source edge hasSource
      refine ⟨m, foundOld, s₁, t₁, ?_⟩
      rw [kept, answer_cons, if_neg apart]
      exact older
  exact ⟨⟨run.2.closed, run.1⟩, run.2⟩

private theorem node?_chosen (chosen : root? g root = some n) :
    g.node? n.id = some n ↔ (root = none → g.OutputLeads n.id) := by
  cases root with
  | none => exact (Graph.node?_output chosen).trans ⟨fun leads _ => leads, fun leads => leads rfl⟩
  | some id =>
    have found : g.node? id = some n := chosen
    have same := Graph.node?_id found
    subst same
    exact ⟨fun _ => nofun, fun _ => found⟩

/-- The artifact of a graph is what the first node with the id of the chosen one makes of the
artifacts of its producers. So it is made by the chosen node where that is given by its id, and where
the first output is chosen and no node in front of it has its id. Only then it is made by an
output. -/
theorem artifact_madeBy (chosen : root? g root = some n)
    (yields : (artifact g canvas root).Yields s a t) :
    ∃ memo m, (walk g canvas root).Yields s (a, memo) t ∧ Founded g canvas memo ∧
      g.node? n.id = some m ∧ MadeBy g canvas memo m a ∧
      (m = n ↔ (root = none → g.OutputLeads n.id)) ∧
      (root = none → n.operator = .output ∧ (m.operator = .output ↔ m = n)) := by
  obtain ⟨⟨b, memo⟩, u, walked, last⟩ := (Work.yields_bind _ _ _ _ _).mp yields
  obtain ⟨rfl, rfl⟩ := (Work.yields_pure _ _ _ _).mp last
  obtain ⟨founded, ran⟩ := walk_founded walked
  obtain ⟨done, rfl⟩ := ran.answer_eq n chosen
  obtain ⟨m, found, made⟩ := founded.made n.id done
  refine ⟨memo, m, walked, founded, found, made, ?_, ?_⟩
  · rw [← node?_chosen chosen, found, Option.some.injEq]
  · rintro rfl
    exact ⟨(Graph.output?_split chosen).1, Graph.operator_of_node?_output chosen found⟩

def namesakeBehind : Graph where
  nodes := [⟨"shape", .circle, []⟩, ⟨"out", .output, []⟩, ⟨"out", .value, []⟩]
  edges := [⟨"1", "shape", "out", "out", "in"⟩]

theorem artifact_namesakeBehind :
    root? namesakeBehind none = some ⟨"out", .output, []⟩ ∧
      ∃ a t, (artifact namesakeBehind ⟨.standard, fun _ _ => .error (.other "")⟩ none).Yields
        Session.start a t ∧
      ∃ memo, MadeBy namesakeBehind ⟨.standard, fun _ _ => .error (.other "")⟩ memo
        ⟨"out", .output, []⟩ a := by
  have run : ∃ a t, (artifact namesakeBehind ⟨.standard, fun _ _ => .error (.other "")⟩ none).Yields
      Session.start a t := ⟨_, _, rfl⟩
  obtain ⟨a, t, yields⟩ := run
  have chosen : root? namesakeBehind none = some ⟨"out", .output, []⟩ := rfl
  obtain ⟨memo, m, -, -, -, made, own, -⟩ := artifact_madeBy chosen yields
  have leads : namesakeBehind.OutputLeads "out" := by
    simp [Graph.OutputLeads, namesakeBehind]
  have same := own.mpr fun _ => leads
  exact ⟨chosen, a, t, yields, memo, same ▸ made⟩

def namesakeAhead : Graph where
  nodes := [⟨"x", .rectangle, []⟩, ⟨"x", .output, []⟩]
  edges := []

/-- The output is chosen, but the box is what is evaluated. -/
theorem artifact_namesakeAhead :
    root? namesakeAhead none = some ⟨"x", .output, []⟩ ∧
      ∃ a t, (artifact namesakeAhead ⟨.standard, fun _ _ => .error (.other "")⟩ none).Yields
        Session.start a t ∧
      ∀ memo, ¬ MadeBy namesakeAhead ⟨.standard, fun _ _ => .error (.other "")⟩ memo
        ⟨"x", .output, []⟩ a := by
  refine ⟨rfl, Shapes.rectangle .standard {}, Session.start, rfl, ?_⟩
  rintro memo ⟨s, t, yields⟩
  have alone : (inputsFrom namesakeAhead memo ⟨"x", .output, []⟩).only = none := rfl
  simp only [Settings.ofBag, Settings.apply, alone, Option.getD_none, Work.yields_pure] at yields
  -- A box with corners is a path, while an output that nothing feeds shows a plain box.
  obtain ⟨same, -⟩ := yields
  cases same

end Evaluate

end Texture
