/- Texture/Proofs/Evaluate/Unshared
   digest: Evaluation without a memo, which makes an artifact again wherever it is read; it meets the
   faults that the schedule meets. -/

import Texture.Proofs.Evaluate.Schedule
import Texture.Proofs.Operator.Rename

set_option autoImplicit false
set_option relaxedAutoImplicit false

namespace Texture.Evaluate

def gatherEach (visit : String → Work Artifact) (g : Graph) (id : String) :
    List Handle → Inputs → Work Inputs
  | [], inputs => return inputs
  | handle :: handles, inputs => do
    match g.producer? id handle with
    | none => gatherEach visit g id handles inputs
    | some source =>
      let a ← visit source
      gatherEach visit g id handles (inputs.set a handle)

/-- The artifact of an id, with every producer evaluated each time it is read. -/
def unshared (g : Graph) (canvas : Canvas) : Nat → String → Work Artifact
  | 0, id => throw (.cyclic id)
  | fuel + 1, id => do
    match g.node? id with
    | none => return .empty
    | some n =>
      let inputs ← gatherEach (unshared g canvas fuel) g id n.operator.handles Inputs.none
      (Settings.ofBag n.operator n.bag).apply canvas inputs

def naive (g : Graph) (canvas : Canvas) (root : Option String) : Work Artifact :=
  match root? g root with
  | none => return .empty
  | some n => unshared g canvas (g.nodes.length + 1) n.id

def nodeFault (g : Graph) (id : String) : Option Fault :=
  (g.node? id).bind fun n => (Settings.ofBag n.operator n.bag).fault?

def Paintless (g : Graph) (root : String) : Prop :=
  ∀ id n, g.Depends root id → g.node? id = some n → n.operator ≠ .pixelate ∧ n.operator ≠ .polar

variable {g : Graph} {canvas : Canvas} {id source : String}

theorem bakes_ofBag (op : Operator) (bag : Bag) :
    (Settings.ofBag op bag).bakes = false ↔ op ≠ .pixelate ∧ op ≠ .polar := by
  cases op <;> simp [Settings.ofBag, Settings.bakes]

theorem Paintless.of_reads (paintless : Paintless g id) (edge : g.Reads id source) :
    Paintless g source :=
  fun k n below found => paintless k n (Relation.ReflTransGen.head edge below) found

theorem Paintless.bakes_eq_false {n : Node} (paintless : Paintless g id)
    (found : g.node? id = some n) : (Settings.ofBag n.operator n.bag).bakes = false :=
  (bakes_ofBag n.operator n.bag).mpr (paintless id n Relation.ReflTransGen.refl found)

private theorem nodeFault_of_node? {n : Node} (found : g.node? id = some n) :
    nodeFault g id = (Settings.ofBag n.operator n.bag).fault? := by
  rw [nodeFault, found, Option.bind_some]

theorem findSome?_eraseDups (f : String → Option Fault) (ids : List String) :
    ids.eraseDups.findSome? f = ids.findSome? f := by
  induction ids using List.reverseRecOn with
  | nil => rfl
  | append_singleton ids id ih =>
    rw [Graph.eraseDups_snoc, List.findSome?_append]
    split
    · rename_i mem
      rw [ih]
      cases first : ids.findSome? f with
      | some e => rfl
      | none => simp [List.findSome?_eq_none_iff.mp first id mem]
    · rw [List.findSome?_append, ih]

theorem performAll_decided (ids : List String) (memo : Memo)
    (bakes : ∀ id ∈ ids, ∀ n, g.node? id = some n →
      (Settings.ofBag n.operator n.bag).bakes = false) :
    (ids.foldlM (perform g canvas) memo).Decided (ids.findSome? (nodeFault g)) := by
  induction ids generalizing memo with
  | nil => exact Work.Succeeds.pure memo
  | cons id ids ih =>
    rw [List.foldlM_cons, ← List.singleton_append, List.findSome?_append,
      List.findSome?_singleton]
    refine Work.Decided.bind ?_ fun later =>
      ih later fun k mem => bakes k (List.mem_cons_of_mem id mem)
    cases found : g.node? id with
    | none =>
      rw [nodeFault, found]
      simp only [perform, found]
      exact Work.Succeeds.pure memo
    | some n =>
      rw [nodeFault_of_node? found]
      simp only [perform, found]
      have made := Settings.apply_decided (bakes id List.mem_cons_self n found) canvas
        (inputsFrom g memo n)
      rw [← Option.or_none (o := (Settings.ofBag n.operator n.bag).fault?)]
      exact made.bind fun a => Work.Succeeds.pure _

private theorem gatherEach_decided (visit : String → Work Artifact) (below : String → List String)
    (id : String) (handles : List Handle)
    (visits : ∀ source ∈ g.feeds id handles,
      (visit source).Decided ((below source).findSome? (nodeFault g))) (inputs : Inputs) :
    (gatherEach visit g id handles inputs).Decided
      (((g.feeds id handles).flatMap below).findSome? (nodeFault g)) := by
  induction handles generalizing inputs with
  | nil => exact Work.Succeeds.pure inputs
  | cons handle handles ih =>
    rw [gatherEach]
    cases found : g.producer? id handle with
    | none =>
      rw [Graph.feeds_cons_none found] at visits ⊢
      exact ih visits inputs
    | some source =>
      rw [Graph.feeds_cons_some found] at visits ⊢
      rw [List.flatMap_cons, List.findSome?_append]
      refine (visits source List.mem_cons_self).bind fun a => ?_
      exact ih (fun k mem => visits k (List.mem_cons_of_mem source mem)) _

/-- Evaluation without a memo meets the first fault of the unrolled order. -/
theorem unshared_decided (fuel : Nat) (path : List String) (id : String)
    (acyclic : g.AcyclicFrom id) (paintless : Paintless g id) (trail : g.Trail path id)
    (deep : g.nodes.length < fuel + path.length) :
    (unshared g canvas fuel id).Decided ((g.unrolled fuel id).findSome? (nodeFault g)) := by
  induction fuel generalizing path id with
  | zero =>
    have short := trail.length_le
    omega
  | succ fuel ih =>
    rw [unshared]
    cases found : g.node? id with
    | none =>
      rw [Graph.unrolled_of_not_has (Graph.not_has_iff.mpr found)]
      exact Work.Succeeds.pure Artifact.empty
    | some n =>
      have has : g.Has id := Graph.has_iff.mpr ⟨n, found⟩
      have producers := Graph.producers_of_node? found
      -- The unrolled order puts the faults of the producers before that of the node.
      rw [Graph.unrolled_of_has has, producers, List.findSome?_append, List.findSome?_singleton,
        nodeFault_of_node? found]
      refine (gatherEach_decided _ (g.unrolled fuel) id n.operator.handles ?_ Inputs.none).bind
        fun inputs => Settings.apply_decided (paintless.bakes_eq_false found) canvas inputs
      intro source mem
      have edge : g.Reads id source := (Graph.reads_iff found).mpr mem
      refine ih (id :: path) source (acyclic.of_reads edge) (paintless.of_reads edge)
        (trail.step acyclic edge) ?_
      rw [List.length_cons]
      omega

end Texture.Evaluate
