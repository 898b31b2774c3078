/- Texture/Proofs/Evaluate/Kept
   digest: What every operator keeps of its inputs, all artifacts of a walk have, those on the way
   included. -/

import Texture.Proofs.Evaluate.Calls
import Texture.Proofs.Requests

set_option autoImplicit false
set_option relaxedAutoImplicit false

namespace Texture

open Work (Upholds)

def Inputs.All (Q : Artifact → Prop) (inputs : Inputs) : Prop :=
  ∀ handle a, inputs.get handle = some a → Q a

private theorem Inputs.All.none {Q : Artifact → Prop} : Inputs.none.All Q := by
  intro handle a filled
  rw [get_none] at filled
  simp at filled

private theorem Inputs.All.set {Q : Artifact → Prop} {inputs : Inputs} (h : inputs.All Q)
    {a : Artifact} (ha : Q a) (handle : Handle) : (inputs.set a handle).All Q := by
  intro other b filled
  rw [get_set] at filled
  by_cases same : handle = other
  · rw [if_pos same, Option.some.injEq] at filled
    rwa [← filled]
  · rw [if_neg same] at filled
    exact h other b filled

namespace Evaluate

/-- The empty artifact has a property, and operators make artifacts with it of such artifacts, asking
only for pixels of some kind. -/
structure Kept (canvas : Canvas) (P : Request → Prop) (Q : Artifact → Prop) : Prop where
  empty : Q .empty
  apply : ∀ (settings : Settings) (inputs : Inputs), inputs.All Q →
    (settings.apply canvas inputs).Upholds P Q

structure KeptFor (allowed : Settings → Prop) (canvas : Canvas) (P : Request → Prop)
    (Q : Artifact → Prop) : Prop where
  empty : Q .empty
  apply : ∀ (settings : Settings) (inputs : Inputs), allowed settings → inputs.All Q →
    (settings.apply canvas inputs).Upholds P Q

def Memo.All (Q : Artifact → Prop) (memo : Memo) : Prop := ∀ id a, (id, a) ∈ memo → Q a

/-- An artifact that a walk computes: what one of its calls yields or keeps, or nothing where there
is no root. -/
def Computed (g : Graph) (canvas : Canvas) (root : Option String) (s : Session) (b : Artifact) :
    Prop :=
  (∃ c a memo t, Entered g canvas root s c ∧ (c.run g canvas).Yields c.session (a, memo) t ∧
    (b = a ∨ ∃ id, (id, b) ∈ memo)) ∨
  (root? g root = none ∧ b = .empty)

variable {g : Graph} {canvas : Canvas} {root : Option String} {s : Session}
  {P : Request → Prop} {Q : Artifact → Prop} {allowed : Settings → Prop}

private theorem Kept.always (kept : Kept canvas P Q) : KeptFor (fun _ => True) canvas P Q :=
  ⟨kept.empty, fun settings inputs _ h => kept.apply settings inputs h⟩

private theorem Memo.All.nil : Memo.All Q [] := by simp [Memo.All]

private theorem gather_keeps {visit : String → Memo → Work (Artifact × Memo)} {index : Index}
    {id : String} (visits : ∀ source memo, Memo.All Q memo →
      (visit source memo).Upholds P fun p => Q p.1 ∧ Memo.All Q p.2)
    (handles : List Handle) {inputs : Inputs} {memo : Memo} (hi : inputs.All Q)
    (hm : Memo.All Q memo) :
    (gather visit index id handles inputs memo).Upholds P fun p =>
      p.1.All Q ∧ Memo.All Q p.2 := by
  induction handles generalizing inputs memo with
  | nil => exact Upholds.pure ⟨hi, hm⟩
  | cons handle handles ih =>
    rw [gather]
    cases index.producer? id handle.name with
    | none => exact ih hi hm
    | some source =>
      refine (visits source memo hm).bind ?_
      rintro ⟨a, later⟩ ⟨ha, hl⟩
      exact ih (hi.set ha handle) hl

private theorem visit_keeps_for (kept : KeptFor allowed canvas P Q) {index : Index}
    (bags : ∀ id n, index.node? id = some n → allowed (Settings.ofBag n.operator n.bag))
    (fuel : Nat) (path : List String) (id : String) {memo : Memo} (hm : Memo.All Q memo) :
    (visit index canvas fuel path id memo).Upholds P fun p => Q p.1 ∧ Memo.All Q p.2 := by
  induction fuel generalizing path id memo with
  | zero => exact Upholds.throw _
  | succ fuel ih =>
    rw [visit]
    cases known : memo.lookup id with
    | some a =>
      obtain ⟨before, after, rfl, -⟩ := List.lookup_eq_some_iff.mp known
      exact Upholds.pure ⟨hm id a (by simp), hm⟩
    | none =>
      cases found : index.node? id with
      | none => exact Upholds.pure ⟨kept.empty, hm⟩
      | some n =>
        simp only
        split
        · exact Upholds.throw _
        · refine (gather_keeps (fun source memo hm => ih (id :: path) source hm)
            n.operator.handles Inputs.All.none hm).bind ?_
          rintro ⟨inputs, later⟩ ⟨hi, hl⟩
          refine (kept.apply _ inputs (bags id n found) hi).bind fun a ha =>
            Upholds.pure ⟨ha, ?_⟩
          intro k b mem
          rcases List.mem_cons.mp mem with same | mem
          · rwa [(Prod.mk.inj same).2]
          · exact hl k b mem

private theorem visit_keeps (kept : Kept canvas P Q) (index : Index) (fuel : Nat)
    (path : List String) (id : String) {memo : Memo} (hm : Memo.All Q memo) :
    (visit index canvas fuel path id memo).Upholds P fun p => Q p.1 ∧ Memo.All Q p.2 :=
  visit_keeps_for kept.always (fun _ _ _ => trivial) fuel path id hm

private theorem Entered.kept (kept : Kept canvas P Q) {c : Call}
    (entered : Entered g canvas root s c) : Memo.All Q c.memo := by
  induction entered with
  | root start => exact Memo.All.nil
  | @producer fuel path id source memo later t u n before after handle inputs caller fresh found
      off split filled connected ih =>
    have gathers : (gather (visit g.index canvas fuel (id :: path)) g.index id before Inputs.none
        memo).Upholds P fun p => p.1.All Q ∧ Memo.All Q p.2 :=
      gather_keeps (fun source memo hm => visit_keeps kept g.index fuel (id :: path) source hm)
        before Inputs.All.none ih
    exact (gathers.ensures t _ u filled).2

theorem Computed.kept (kept : Kept canvas P Q) {b : Artifact}
    (computed : Computed g canvas root s b) : Q b := by
  rcases computed with ⟨c, a, memo, t, entered, yields, held⟩ | ⟨-, rfl⟩
  · have visits : (visit g.index canvas c.fuel c.path c.id c.memo).Upholds P
        fun p => Q p.1 ∧ Memo.All Q p.2 :=
      visit_keeps kept g.index c.fuel c.path c.id (entered.kept kept)
    obtain ⟨ha, hm⟩ := visits.ensures c.session (a, memo) t yields
    rcases held with rfl | ⟨id, mem⟩
    · exact ha
    · exact hm id b mem
  · exact kept.empty

theorem walk_computed {a : Artifact} {memo : Memo} {t : Session}
    (yields : (walk g canvas root).Yields s (a, memo) t) : Computed g canvas root s a := by
  cases start : root? g root with
  | none =>
    simp only [walk, start, Work.yields_pure, Prod.mk.injEq] at yields
    exact Or.inr ⟨start, yields.1.1.symm⟩
  | some n =>
    simp only [walk, start] at yields
    exact Or.inl ⟨_, a, memo, t, Entered.root start, yields, Or.inl rfl⟩

theorem artifact_computed {a : Artifact} {t : Session}
    (yields : (artifact g canvas root).Yields s a t) : Computed g canvas root s a := by
  obtain ⟨⟨b, memo⟩, u, walked, last⟩ := (Work.yields_bind _ _ _ _ _).mp yields
  obtain ⟨rfl, rfl⟩ := (Work.yields_pure _ _ _ _).mp last
  exact walk_computed walked

theorem artifact_keeps_for (kept : KeptFor allowed canvas P Q) (g : Graph)
    (bags : ∀ n ∈ g.nodes, allowed (Settings.ofBag n.operator n.bag)) (root : Option String) :
    (artifact g canvas root).Upholds P Q := by
  unfold artifact walk
  cases root? g root with
  | none => exact Upholds.pure kept.empty
  | some n =>
    have held : ∀ id n, g.index.node? id = some n → allowed (Settings.ofBag n.operator n.bag) := by
      intro id n found
      rw [Graph.index_node?] at found
      exact bags n (List.mem_of_find?_eq_some found)
    refine (visit_keeps_for kept held _ [] n.id Memo.All.nil).bind fun p h => ?_
    exact Upholds.pure h.1

theorem artifact_keeps (kept : Kept canvas P Q) (g : Graph) (root : Option String) :
    (artifact g canvas root).Upholds P Q :=
  artifact_keeps_for kept.always g (fun _ _ => trivial) root

end Evaluate

end Texture
