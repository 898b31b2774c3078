/- Texture/Proofs/Evaluate/Relabel
   digest: Ids of nodes are names only: under other ids a graph comes to the same artifact in the
   same session, and a cycle is told of under the new name. -/

import Texture.Proofs.Evaluate.Cycle
import Texture.Proofs.Graph.Relabel

set_option autoImplicit false
set_option relaxedAutoImplicit false

namespace Texture

def Fault.relabel (f : String → String) : Fault → Fault
  | .cyclic id => .cyclic (f id)
  | e => e

/-- What two runs over the same nodes under different ids come to: values that correspond, a cycle
at the same node, or the same fault about pixels, and always the same session. -/
inductive Relabelled (f : String → String) (rasterizer : Rasterizer) {α β : Type} (φ : α → β) :
    Except Fault α × Session → Except Fault β × Session → Prop
  | ok (a : α) (t : Session) : Relabelled f rasterizer φ (.ok a, t) (.ok (φ a), t)
  | cyclic (id : String) (t : Session) :
      Relabelled f rasterizer φ (.error (.cyclic id), t) (.error (.cyclic (f id)), t)
  | pixels {e : Fault} {t : Session} (about : e.OfPixels rasterizer t) :
      Relabelled f rasterizer φ (.error e, t) (.error e, t)

/-- From every session on, two pieces of work come to the same up to ids. -/
def Work.Relabels (f : String → String) (rasterizer : Rasterizer) {α β : Type} (φ : α → β)
    (x : Work α) (y : Work β) : Prop :=
  ∀ s, Relabelled f rasterizer φ (x.after s) (y.after s)

namespace Work.Relabels

variable {f : String → String} {rasterizer : Rasterizer} {α β γ δ : Type} {φ : α → β} {ψ : γ → δ}

theorem pure (a : α) :
    Relabels f rasterizer φ (Pure.pure a : Work α) (Pure.pure (φ a) : Work β) :=
  fun s => Relabelled.ok a s

theorem cyclic (id : String) :
    Relabels f rasterizer φ (MonadExcept.throw (Fault.cyclic id) : Work α)
      (MonadExcept.throw (Fault.cyclic (f id)) : Work β) :=
  fun s => Relabelled.cyclic id s

private theorem bind {x : Work α} {y : Work β} {F : α → Work γ} {G : β → Work δ}
    (first : Relabels f rasterizer φ x y) (rest : ∀ a, Relabels f rasterizer ψ (F a) (G (φ a))) :
    Relabels f rasterizer ψ (x >>= F) (y >>= G) := by
  intro s
  have outcome := first s
  rw [after_bind, after_bind]
  generalize x.after s = left at outcome ⊢
  generalize y.after s = right at outcome ⊢
  cases outcome with
  | ok a t => exact rest a t
  | cyclic id t => exact Relabelled.cyclic id t
  | pixels about => exact Relabelled.pixels about

theorem of_failsWith {x : Work α} (fails : x.FailsWith (Fault.OfPixels rasterizer)) :
    Relabels f rasterizer (fun a => a) x x := by
  intro s
  rcases outcome : x.after s with ⟨e | a, t⟩
  · exact Relabelled.pixels (fails s e t outcome)
  · exact Relabelled.ok a t

theorem eq {x y : Work α} (same : Relabels (fun id => id) rasterizer (fun a => a) x y) :
    x = y := by
  refine ext fun s => ?_
  have outcome := same s
  generalize x.after s = left at outcome ⊢
  generalize y.after s = right at outcome ⊢
  cases outcome with
  | ok a t => rfl
  | cyclic id t => rfl
  | pixels about => rfl

end Work.Relabels

private theorem Relabelled.eq {f : String → String} {rasterizer : Rasterizer} {α : Type}
    {left right : Except Fault α × Session}
    (outcome : Relabelled f rasterizer (fun a => a) left right)
    (painter : ∀ earlier request id, rasterizer earlier request ≠ .error (.cyclic id)) :
    right = (left.1.mapError (Fault.relabel f), left.2) := by
  cases outcome with
  | ok a t => rfl
  | cyclic id t => rfl
  | @pixels e t about =>
    have same : e.relabel f = e := by
      cases e with
      | cyclic id =>
        rcases about with ⟨text, told⟩ | ⟨earlier, request, -, answered⟩
        · simp at told
        · exact absurd answered (painter earlier request id)
      | _ => rfl
    show (Except.error e, t) = (Except.error (e.relabel f), t)
    rw [same]

end Texture

namespace Texture.Evaluate

open Relation (ReflTransGen)
open Work (Relabels)

def Memo.relabel (f : String → String) (memo : Memo) : Memo := memo.map fun p => (f p.1, p.2)

variable {f : String → String} {g h : Graph} {canvas : Canvas} {rasterizer : Rasterizer}

private theorem Memo.lookup_relabel (inj : f.Injective) (memo : Memo) (id : String) :
    (Memo.relabel f memo).lookup (f id) = memo.lookup id := by
  induction memo with
  | nil => rfl
  | cons p memo ih =>
    have same : (f id == f p.1) = (id == p.1) := inj.beq_eq
    show List.lookup (f id) ((f p.1, p.2) :: Memo.relabel f memo) = List.lookup id (p :: memo)
    rw [List.lookup_cons, List.lookup_cons, same, ih]

private theorem contains_relabel (inj : f.Injective) (path : List String) (id : String) :
    (path.map f).contains (f id) = path.contains id := by
  rw [Bool.eq_iff_iff, List.contains_iff_mem, List.contains_iff_mem]
  exact List.mem_map_of_injective inj

abbrev relabelSecond (f : String → String) {α : Type} (p : α × Memo) : α × Memo :=
  (p.1, Memo.relabel f p.2)

private theorem gather_relabels {visit visit' : String → Memo → Work (Artifact × Memo)}
    {id : String} (handles : List Handle)
    (same : ∀ handle ∈ handles, h.producer? (f id) handle = (g.producer? id handle).map f)
    (visits : ∀ source ∈ g.feeds id handles, ∀ memo,
      Relabels f rasterizer (relabelSecond f) (visit source memo)
        (visit' (f source) (Memo.relabel f memo)))
    (inputs : Inputs) (memo : Memo) :
    Relabels f rasterizer (relabelSecond f) (gather visit g.index id handles inputs memo)
      (gather visit' h.index (f id) handles inputs (Memo.relabel f memo)) := by
  induction handles generalizing inputs memo with
  | nil => exact Relabels.pure (inputs, memo)
  | cons handle handles ih =>
    have first : h.producer? (f id) handle = (g.producer? id handle).map f :=
      same handle List.mem_cons_self
    have rest : ∀ handle ∈ handles, h.producer? (f id) handle = (g.producer? id handle).map f :=
      fun other mem => same other (List.mem_cons_of_mem handle mem)
    cases found : g.producer? id handle with
    | none =>
      rw [found, Option.map_none] at first
      rw [gather_cons_none found, gather_cons_none first]
      rw [Graph.feeds_cons_none found] at visits
      exact ih rest visits inputs memo
    | some source =>
      rw [found, Option.map_some] at first
      rw [gather_cons_some found, gather_cons_some first]
      rw [Graph.feeds_cons_some found] at visits
      refine (visits source List.mem_cons_self memo).bind fun p => ?_
      exact ih rest (fun k mem => visits k (List.mem_cons_of_mem source mem)) _ _

/-- Two visits go hand in hand where the graphs say the same below, up to ids. -/
theorem visit_relabels (inj : f.Injective) (fuel : Nat) (path : List String) (id : String)
    (memo : Memo) (reflects : ∀ k, g.Depends id k → Graph.Reflects f g h k) :
    Relabels f canvas.rasterizer (relabelSecond f) (visit g.index canvas fuel path id memo)
      (visit h.index canvas fuel (path.map f) (f id) (Memo.relabel f memo)) := by
  -- Both walks spend their fuel alike, and what the graphs say below a node, they say below each of
  -- its sources.
  induction fuel generalizing path id memo with
  | zero => exact Relabels.cyclic id
  | succ fuel ih =>
    have here : Graph.Reflects f g h id := reflects id ReflTransGen.refl
    rw [visit, visit, Memo.lookup_relabel inj, Graph.index_node?, Graph.index_node?, here.node]
    cases memo.lookup id with
    | some a => exact Relabels.pure (a, memo)
    | none =>
      cases found : g.node? id with
      | none => exact Relabels.pure (Artifact.empty, memo)
      | some n =>
        simp only [Option.map_some, Node.relabel, contains_relabel inj]
        split
        · exact Relabels.cyclic id
        · have below : ∀ source ∈ g.feeds id n.operator.handles, ∀ memo,
              Relabels f canvas.rasterizer (relabelSecond f)
                (visit g.index canvas fuel (id :: path) source memo)
                (visit h.index canvas fuel (f id :: path.map f) (f source)
                  (Memo.relabel f memo)) := by
            intro source mem memo
            have edge : g.Reads id source := (Graph.reads_iff found).mpr mem
            refine ih (id :: path) source memo fun k depends => ?_
            exact reflects k (ReflTransGen.head edge depends)
          refine (gather_relabels n.operator.handles (here.producer n found) below Inputs.none
            memo).bind fun p => ?_
          refine (Relabels.of_failsWith
            (Settings.apply_failsWith _ canvas p.1)).bind fun a => ?_
          exact Relabels.pure (a, (id, a) :: p.2)

end Texture.Evaluate
