/- Texture/Proofs/Graph/Editing
   digest: Graphs edited step by step: inputs with one producer keep one, and every step changes what
   it names and leaves all else as and where it was. -/

import Texture.Proofs.Graph.Connection
import Texture.Proofs.Json.Value

set_option autoImplicit false
set_option relaxedAutoImplicit false

namespace Texture

/-- A step of the editor. New values stand in the order of their names, as in every bag. -/
inductive Edit where
  | connect (e : Edge)
  | disconnect (id : String)
  | addNode (n : Node)
  | removeNode (id : String)
  | updateBag (id : String) (patch : Bag) (ordered : patch.Ascending)

inductive Reply where
  | edge (old : Option Edge)
  | node (old : Option Node)
  | found (there : Bool)
  | nothing

namespace Edit

def run (g : Graph) : Edit → Graph × Reply
  | connect e => ((g.connect e).1, .edge (g.connect e).2)
  | disconnect id => ((g.disconnect id).1, .edge (g.disconnect id).2)
  | addNode n => (g.addNode n, .nothing)
  | removeNode id => ((g.removeNode id).1, .node (g.removeNode id).2)
  | updateBag id patch _ => ((g.updateBag id patch).1, .found (g.updateBag id patch).2)

/-- A step hands back that there is no such edge or node. -/
def Misses : Edit → Reply → Prop
  | disconnect _, .edge none => True
  | removeNode _, .node none => True
  | updateBag _ _ _, .found false => True
  | _, _ => False

/-- What feeds an input after a step, from what fed it before: a connection binds its input, and
edges that go leave theirs unbound. -/
def bound (g : Graph) (target handle : String) : Edit → Option Edge
  | connect e => if e.feeds target handle then some e else g.incoming? target handle
  | disconnect id =>
    (g.incoming? target handle).filter fun e => g.edges.find? (fun d => d.id == id) != some e
  | removeNode id =>
    (g.incoming? target handle).filter fun e => (g.node? id).isNone || !e.touches id
  | addNode _ | updateBag _ _ _ => g.incoming? target handle

end Edit

namespace Graph

def IsSingleFed (g : Graph) : Prop :=
  ∀ target handle, (g.supplies target handle).length ≤ 1

def edited (g : Graph) (edits : List Edit) : Graph := edits.foldl (fun g edit => (edit.run g).1) g

/-- What a step does to a graph in which inputs have one producer, and what it hands back. Whatever
is written down twice stays as it is, where it is. -/
inductive Effect : Graph → Edit → Graph → Reply → Prop
  | connectFree {nodes : List Node} {edges : List Edge} {e : Edge}
      (free : ∀ other ∈ edges, ¬ other.feeds e.target e.targetHandle) :
      Effect ⟨nodes, edges⟩ (.connect e) ⟨nodes, edges ++ [e]⟩ (.edge none)
  | connectBound {nodes : List Node} {before after : List Edge} {old e : Edge}
      (feeds : old.feeds e.target e.targetHandle)
      (only : ∀ other ∈ before ++ after, ¬ other.feeds e.target e.targetHandle) :
      Effect ⟨nodes, before ++ old :: after⟩ (.connect e) ⟨nodes, before ++ after ++ [e]⟩
        (.edge (some old))
  | disconnectNone {nodes : List Node} {edges : List Edge} {id : String}
      (absent : ∀ e ∈ edges, e.id ≠ id) :
      Effect ⟨nodes, edges⟩ (.disconnect id) ⟨nodes, edges⟩ (.edge none)
  | disconnectFirst {nodes : List Node} {before after : List Edge} {e : Edge}
      (first : ∀ other ∈ before, other.id ≠ e.id) :
      Effect ⟨nodes, before ++ e :: after⟩ (.disconnect e.id) ⟨nodes, before ++ after⟩
        (.edge (some e))
  | addNode {nodes : List Node} {edges : List Edge} {n : Node} :
      Effect ⟨nodes, edges⟩ (.addNode n) ⟨nodes ++ [n], edges⟩ .nothing
  | removeNone {nodes : List Node} {edges : List Edge} {id : String}
      (absent : ∀ n ∈ nodes, n.id ≠ id) :
      Effect ⟨nodes, edges⟩ (.removeNode id) ⟨nodes, edges⟩ (.node none)
  | removeFirst {before after : List Node} {edges : List Edge} {n : Node}
      (first : ∀ other ∈ before, other.id ≠ n.id) :
      Effect ⟨before ++ n :: after, edges⟩ (.removeNode n.id)
        ⟨before ++ after, edges.filter fun e => e.source ≠ n.id ∧ e.target ≠ n.id⟩
        (.node (some n))
  | updateNone {nodes : List Node} {edges : List Edge} {id : String} {patch : Bag}
      {ordered : patch.Ascending} (absent : ∀ n ∈ nodes, n.id ≠ id) :
      Effect ⟨nodes, edges⟩ (.updateBag id patch ordered) ⟨nodes, edges⟩ (.found false)
  | updateFirst {before after : List Node} {edges : List Edge} {n : Node} {patch merged : Bag}
      {ordered : patch.Ascending} (first : ∀ other ∈ before, other.id ≠ n.id)
      (values : ∀ key, merged.get? key = (patch.get? key).or (n.bag.get? key))
      (stays : n.bag.Ascending → merged.Ascending) :
      Effect ⟨before ++ n :: after, edges⟩ (.updateBag n.id patch ordered)
        ⟨before ++ { n with bag := merged } :: after, edges⟩ (.found true)

section

variable {α : Type} {p : α → Bool} {before after : List α} {a : α}

private theorem eraseP_split (first : ∀ b ∈ before, p b = false) (hit : p a = true) :
    (before ++ a :: after).eraseP p = before ++ after := by
  have missed : ∀ b ∈ before, ¬ p b = true := fun b held => by simp [first b held]
  rw [List.eraseP_append_right _ missed, List.eraseP_cons_of_pos hit]

private theorem modifyNode_split {before after : List Node} {n : Node} {change : Node → Node}
    (first : ∀ other ∈ before, other.id ≠ n.id) :
    modifyNode n.id change (before ++ n :: after) = before ++ change n :: after := by
  induction before with
  | nil => simp [modifyNode]
  | cons other before ih =>
    have rest := ih fun m held => first m (List.mem_cons_of_mem _ held)
    rw [List.cons_append, modifyNode, if_neg (first other List.mem_cons_self), rest,
      List.cons_append]

private theorem modifyNode_absent {nodes : List Node} {id : String} {change : Node → Node}
    (absent : ∀ n ∈ nodes, n.id ≠ id) : modifyNode id change nodes = nodes := by
  induction nodes with
  | nil => rfl
  | cons n nodes ih =>
    rw [modifyNode, if_neg (absent n List.mem_cons_self),
      ih fun m held => absent m (List.mem_cons_of_mem _ held)]

private theorem find?_split (p : α → Bool) (items : List α) :
    (items.find? p = none ∧ ∀ a ∈ items, p a = false) ∨
      ∃ before a after, items = before ++ a :: after ∧ items.find? p = some a ∧ p a = true ∧
        ∀ b ∈ before, p b = false := by
  cases found : items.find? p with
  | none =>
    refine .inl ⟨rfl, fun a held => ?_⟩
    exact Bool.eq_false_iff.mpr (List.find?_eq_none.mp found a held)
  | some a =>
    obtain ⟨hit, before, after, same, first⟩ := List.find?_eq_some_iff_append.mp found
    exact .inr ⟨before, a, after, same, rfl, hit, fun b held => by simpa using first b held⟩

end

variable {g h : Graph} {edit : Edit} {reply : Reply} {target handle : String}

private theorem IsSingleFed.only {nodes : List Node} {before after : List Edge} {e : Edge}
    (single : IsSingleFed ⟨nodes, before ++ e :: after⟩) (feeds : e.feeds target handle) :
    ∀ other ∈ before ++ after, ¬ other.feeds target handle := by
  have few := single target handle
  have split : (e :: after).filter (fun d => d.feeds target handle) =
      e :: after.filter (fun d => d.feeds target handle) := List.filter_cons_of_pos feeds
  rw [supplies, List.filter_append, split, List.length_append, List.length_cons] at few
  have none : (before ++ after).filter (fun d => d.feeds target handle) = [] := by
    rw [← List.length_eq_zero_iff, List.filter_append, List.length_append]
    omega
  exact List.filter_eq_nil_iff.mp none

private theorem connect_effect (single : g.IsSingleFed) (e : Edge) :
    Effect g (.connect e) (g.connect e).1 (.edge (g.connect e).2) := by
  obtain ⟨nodes, edges⟩ := g
  rcases find?_split (fun old => old.feeds e.target e.targetHandle) edges with
    ⟨found, free⟩ | ⟨before, old, after, rfl, found, feeds, first⟩
  · have free : ∀ old ∈ edges, ¬ old.feeds e.target e.targetHandle := by simpa using free
    rw [connect, incoming?, found, List.eraseP_of_forall_not free]
    exact .connectFree free
  · rw [connect, incoming?, found, eraseP_split first feeds]
    exact .connectBound feeds (single.only feeds)

private theorem disconnect_effect (g : Graph) (id : String) :
    Effect g (.disconnect id) (g.disconnect id).1 (.edge (g.disconnect id).2) := by
  obtain ⟨nodes, edges⟩ := g
  rcases find?_split (fun e => e.id == id) edges with
    ⟨found, absent⟩ | ⟨before, e, after, rfl, found, hit, first⟩
  · have absent : ∀ e ∈ edges, e.id ≠ id := by simpa using absent
    rw [disconnect, found, List.eraseP_of_forall_not (by simpa using absent)]
    exact .disconnectNone absent
  · rw [disconnect, found, eraseP_split first hit]
    obtain rfl : e.id = id := by simpa using hit
    exact .disconnectFirst (by simpa using first)

private theorem removeNode_effect (g : Graph) (id : String) :
    Effect g (.removeNode id) (g.removeNode id).1 (.node (g.removeNode id).2) := by
  obtain ⟨nodes, edges⟩ := g
  rcases find?_split (fun n => n.id == id) nodes with
    ⟨found, absent⟩ | ⟨before, n, after, rfl, found, hit, first⟩
  · have absent : ∀ n ∈ nodes, n.id ≠ id := by simpa using absent
    rw [removeNode, node?, found]
    exact .removeNone absent
  · simp only [removeNode, node?, found, eraseP_split first hit]
    obtain rfl : n.id = id := by simpa using hit
    have kept : (edges.filter fun e => !e.touches n.id) =
        edges.filter fun e => e.source ≠ n.id ∧ e.target ≠ n.id :=
      List.filter_congr fun e _ => by rw [Bool.eq_iff_iff]; simp [Edge.touches]
    rw [kept]
    exact .removeFirst (by simpa using first)

private theorem updateBag_effect (g : Graph) (id : String) {patch : Bag}
    (ordered : patch.Ascending) :
    Effect g (.updateBag id patch ordered) (g.updateBag id patch).1 (.found (g.updateBag id patch).2) := by
  obtain ⟨nodes, edges⟩ := g
  rcases find?_split (fun n => n.id == id) nodes with
    ⟨found, absent⟩ | ⟨before, n, after, rfl, found, hit, first⟩
  · have absent : ∀ n ∈ nodes, n.id ≠ id := by simpa using absent
    rw [updateBag, node?, found, modifyNode_absent absent]
    exact .updateNone absent
  · obtain rfl : n.id = id := by simpa using hit
    have first : ∀ other ∈ before, other.id ≠ n.id := by simpa using first
    rw [updateBag, node?, found, modifyNode_split first]
    exact .updateFirst first (Bag.get?_merge ordered n.bag) fun held => held.merge patch

/-- Where inputs have one producer, each step has its effect. -/
private theorem run_effect (single : g.IsSingleFed) (edit : Edit) :
    Effect g edit (edit.run g).1 (edit.run g).2 := by
  cases edit with
  | connect e => exact connect_effect single e
  | disconnect id => exact disconnect_effect g id
  | addNode n => exact .addNode
  | removeNode id => exact removeNode_effect g id
  | updateBag id patch ordered => exact updateBag_effect g id ordered

/-! What follows from the effects alone. -/

private theorem Effect.eq_of_misses (effect : Effect g edit h reply) (missed : edit.Misses reply) :
    h = g := by
  cases effect with
  | disconnectNone absent => rfl
  | removeNone absent => rfl
  | updateNone absent => rfl
  | _ => cases missed

private theorem IsSingleFed.sublist (single : g.IsSingleFed) (fewer : h.edges.Sublist g.edges) :
    h.IsSingleFed := fun target handle =>
  ((fewer.filter fun e => e.feeds target handle).length_le).trans (single target handle)

private theorem IsSingleFed.append {nodes : List Node} {edges : List Edge} {e : Edge}
    (single : IsSingleFed ⟨nodes, edges⟩)
    (free : ∀ other ∈ edges, ¬ other.feeds e.target e.targetHandle) :
    IsSingleFed ⟨nodes, edges ++ [e]⟩ := by
  intro target handle
  rw [supplies, List.filter_append, List.length_append]
  by_cases into : e.feeds target handle
  · obtain ⟨rfl, rfl⟩ := Edge.feeds_iff.mp into
    have none : edges.filter (fun d => d.feeds e.target e.targetHandle) = [] :=
      List.filter_eq_nil_iff.mpr free
    rw [none, List.length_nil, Nat.zero_add]
    exact List.length_filter_le _ [e]
  · have others := single target handle
    rw [supplies] at others
    simpa [into] using others

private theorem Effect.isSingleFed (effect : Effect g edit h reply) (single : g.IsSingleFed) :
    h.IsSingleFed := by
  cases effect with
  | connectFree free => exact single.append free
  | @connectBound nodes before after old e feeds only =>
    have rest : IsSingleFed ⟨nodes, before ++ after⟩ :=
      single.sublist ((List.sublist_cons_self old after).append_left before)
    exact rest.append only
  | @disconnectFirst nodes before after e first =>
    exact single.sublist ((List.sublist_cons_self e after).append_left before)
  | removeFirst first => exact single.sublist List.filter_sublist
  | disconnectNone absent => exact single
  | removeNone absent => exact single
  | updateNone absent => exact single
  | addNode => exact single
  | updateFirst first values stays => exact single

private theorem edited_isSingleFed (single : g.IsSingleFed) (edits : List Edit) :
    (g.edited edits).IsSingleFed := by
  induction edits generalizing g with
  | nil => exact single
  | cons edit edits ih => exact ih ((run_effect single edit).isSingleFed single)

private theorem incoming?_append {nodes : List Node} {edges : List Edge} {e : Edge}
    (free : ∀ other ∈ edges, ¬ other.feeds e.target e.targetHandle) (target handle : String) :
    incoming? ⟨nodes, edges ++ [e]⟩ target handle =
      if e.feeds target handle then some e else incoming? ⟨nodes, edges⟩ target handle := by
  rw [incoming?, incoming?, List.find?_append]
  split
  · rename_i into
    obtain ⟨rfl, rfl⟩ := Edge.feeds_iff.mp into
    have none : edges.find? (fun d => d.feeds e.target e.targetHandle) = none :=
      List.find?_eq_none.mpr free
    rw [none, Option.none_or]
    exact List.find?_cons_of_pos into
  · rename_i elsewhere
    have none : [e].find? (fun d => d.feeds target handle) = none :=
      List.find?_cons_of_neg elsewhere
    rw [none, Option.or_none]

private theorem incoming?_without {nodes : List Node} {before after : List Edge} {e : Edge}
    (elsewhere : ¬ e.feeds target handle) :
    incoming? ⟨nodes, before ++ e :: after⟩ target handle =
      incoming? ⟨nodes, before ++ after⟩ target handle := by
  have skipped : (e :: after).find? (fun d => d.feeds target handle) =
      after.find? (fun d => d.feeds target handle) := List.find?_cons_of_neg elsewhere
  rw [incoming?, incoming?, List.find?_append, List.find?_append, skipped]

private theorem incoming?_gone {nodes : List Node} {before after : List Edge} {e : Edge}
    (single : IsSingleFed ⟨nodes, before ++ e :: after⟩) (target handle : String) :
    incoming? ⟨nodes, before ++ after⟩ target handle =
      (incoming? ⟨nodes, before ++ e :: after⟩ target handle).filter
        fun d => some e != some d := by
  by_cases feeds : e.feeds target handle
  · have only := single.only feeds
    have left : incoming? ⟨nodes, before ++ after⟩ target handle = none :=
      List.find?_eq_none.mpr only
    have held : incoming? ⟨nodes, before ++ e :: after⟩ target handle = some e := by
      rw [incoming?, List.find?_eq_some_iff_append]
      refine ⟨feeds, before, after, rfl, fun other mem => ?_⟩
      simpa using only other (List.mem_append_left after mem)
    rw [left, held, Option.filter_some, bne_self_eq_false]
    rfl
  · rw [incoming?_without feeds]
    cases fed : incoming? ⟨nodes, before ++ after⟩ target handle with
    | none => rfl
    | some d =>
      have into : d.feeds target handle :=
        List.find?_some (p := fun other : Edge => other.feeds target handle) fed
      have apart : some e ≠ some d := fun same => feeds (Option.some.inj same ▸ into)
      rw [Option.filter_some, bne_iff_ne.mpr apart]
      rfl

private theorem incoming?_filter (single : g.IsSingleFed) (nodes : List Node) (kept : Edge → Bool)
    (target handle : String) :
    incoming? ⟨nodes, g.edges.filter kept⟩ target handle =
      (g.incoming? target handle).filter kept := by
  have few := single target handle
  have swapped : supplies ⟨nodes, g.edges.filter kept⟩ target handle =
      (g.supplies target handle).filter kept := List.filter_comm ..
  rw [incoming?_eq_head?, incoming?_eq_head?, swapped]
  generalize g.supplies target handle = fed at few ⊢
  rcases fed with _ | ⟨e, _ | ⟨d, rest⟩⟩
  · rfl
  · rw [List.filter_cons, List.filter_nil, List.head?_cons, Option.filter_some]
    split <;> rfl
  · simp at few

/-- Where inputs have one producer, the edges act as a map from inputs to what feeds them. -/
private theorem Effect.incoming?_eq (effect : Effect g edit h reply) (single : g.IsSingleFed)
    (target handle : String) : h.incoming? target handle = edit.bound g target handle := by
  cases effect with
  | connectFree free => exact incoming?_append free target handle
  | @connectBound nodes before after old e feeds only =>
    rw [incoming?_append only, Edit.bound]
    split
    · rfl
    · rename_i elsewhere
      refine (incoming?_without fun into => elsewhere ?_).symm
      obtain ⟨sameTarget, sameHandle⟩ := Edge.feeds_iff.mp feeds
      rwa [Edge.feeds, ← sameTarget, ← sameHandle]
  | @disconnectNone nodes edges id absent =>
    have none : edges.find? (fun e => e.id == id) = none := by simpa using absent
    rw [Edit.bound, none]
    cases incoming? ⟨nodes, edges⟩ target handle <;> rfl
  | @disconnectFirst nodes before after e first =>
    have found : (before ++ e :: after).find? (fun d => d.id == e.id) = some e := by
      rw [List.find?_eq_some_iff_append]
      exact ⟨by simp, before, after, rfl, by simpa using first⟩
    rw [Edit.bound, found]
    exact incoming?_gone single target handle
  | @removeNone nodes edges id absent =>
    have none : node? ⟨nodes, edges⟩ id = none := by simpa [node?] using absent
    rw [Edit.bound, none]
    cases incoming? ⟨nodes, edges⟩ target handle <;> rfl
  | @removeFirst before after edges n first =>
    have found : node? ⟨before ++ n :: after, edges⟩ n.id = some n := by
      rw [node?, List.find?_eq_some_iff_append]
      exact ⟨by simp, before, after, rfl, by simpa using first⟩
    -- The edge into an input stays if neither of its ends is the node.
    have left := incoming?_filter single (before ++ after)
      (fun e => e.source ≠ n.id ∧ e.target ≠ n.id) target handle
    rw [left, Edit.bound, found]
    cases incoming? ⟨before ++ n :: after, edges⟩ target handle with
    | none => rfl
    | some e => simp [Option.filter_some, Edge.touches]
  | addNode => rfl
  | updateNone absent => rfl
  | updateFirst first values stays => rfl

private theorem edited_snoc (g : Graph) (edits : List Edit) (edit : Edit) :
    g.edited (edits ++ [edit]) = (edit.run (g.edited edits)).1 := List.foldl_concat ..

/-- Where inputs have one producer to begin with, they have one after every step, and every step has
its effect: on the edges as a map from inputs to producers, on what is handed back, and on nothing
that it does not name. A step that finds no edge or node leaves the graph as it was. -/
theorem edited_step (single : g.IsSingleFed) (before : List Edit) (edit : Edit) :
    (g.edited (before ++ [edit])).IsSingleFed ∧
      Effect (g.edited before) edit (g.edited (before ++ [edit])) (edit.run (g.edited before)).2 ∧
      (∀ target handle, (g.edited (before ++ [edit])).incoming? target handle =
        edit.bound (g.edited before) target handle) ∧
      (edit.Misses (edit.run (g.edited before)).2 →
        g.edited (before ++ [edit]) = g.edited before) := by
  have earlier := edited_isSingleFed single before
  have effect := run_effect earlier edit
  rw [edited_snoc]
  exact ⟨effect.isSingleFed earlier, effect, effect.incoming?_eq earlier, effect.eq_of_misses⟩

private theorem isSingleFed_of_pairwise
    (apart : g.edges.Pairwise fun e later => ¬ later.feeds e.target e.targetHandle) :
    g.IsSingleFed := by
  obtain ⟨nodes, edges⟩ := g
  intro target handle
  induction edges with
  | nil => exact Nat.zero_le 1
  | cons e edges ih =>
    obtain ⟨later, rest⟩ := List.pairwise_cons.mp apart
    rw [supplies, List.filter_cons]
    split
    · rename_i into
      obtain ⟨rfl, rfl⟩ := Edge.feeds_iff.mp into
      rw [List.filter_eq_nil_iff.mpr later]
      exact Nat.le_refl 1
    · exact ih rest

/-- Another level of gray is connected, made white, and taken out again. -/
def regrayed : List Edit :=
  [.connect (fromLevel "2" "b"),
    .updateBag "b" [("value", .number (.natural 1))] (List.pairwise_singleton _ _),
    .removeNode "b", .disconnect "2"]

theorem regrayed_step :
    (levels [fromLevel "1" "a"]).IsSingleFed ∧
      Effect (levels [fromLevel "1" "a"]) (.connect (fromLevel "2" "b"))
        (levels [fromLevel "2" "b"]) (.edge (some (fromLevel "1" "a"))) ∧
      ((levels [fromLevel "1" "a"]).edited (regrayed.take 3)).incoming? "out" "in" = none ∧
      (levels [fromLevel "1" "a"]).edited regrayed =
        (levels [fromLevel "1" "a"]).edited (regrayed.take 3) := by
  have single : (levels [fromLevel "1" "a"]).IsSingleFed :=
    isSingleFed_of_pairwise (List.pairwise_singleton _ _)
  have connected := edited_step single [] (.connect (fromLevel "2" "b"))
  have removed := edited_step single (regrayed.take 2) (.removeNode "b")
  have missed := edited_step single (regrayed.take 3) (.disconnect "2")
  refine ⟨single, connected.2.1, ?_, missed.2.2.2 ?_⟩
  · exact removed.2.2.1 "out" "in"
  · trivial

end Graph

end Texture
