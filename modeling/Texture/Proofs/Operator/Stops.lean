/- Texture/Proofs/Operator/Stops
   digest: Gradients edited stop by stop: no step loses a stop, stops stay in the order of their
   offsets with equal ones as they stood, and only a stop given at the start can be off the axis. -/

import Texture.Proofs.Operator.Modest

set_option autoImplicit false
set_option relaxedAutoImplicit false

namespace Texture

open Number (IsShare Position exactValue)
open Number.Binary (fractionUnit infinityBits isFinite signUnit)

namespace Number

variable {p : Position}

private theorem isFinite_toFloat (small : p.bits.toNat % signUnit < infinityBits) :
    isFinite p.toFloat = true := by
  have read : Binary.ofFloat p.toFloat = Binary.ofBits p.bits.toNat := ofFloat_ofBits p.bits
  have field : p.bits.toNat / fractionUnit % 2048 ≠ 2047 := by
    simp only [signUnit, infinityBits, fractionUnit] at *
    omega
  rw [isFinite, read, Binary.ofBits]
  simp only [if_neg field]
  by_cases subnormal : p.bits.toNat / fractionUnit % 2048 = 0
  · rw [if_pos subnormal]
  · rw [if_neg subnormal]

private theorem isShare_of_rank (least : -1 ≤ p.rank) (most : p.rank ≤ Position.one.rank) :
    IsShare p.toFloat := by
  have top : Position.one.rank = 4607182418800017408 := by decide
  have small : p.bits.toNat % signUnit < infinityBits := by
    rw [top] at most
    unfold Position.rank at least most
    by_cases low : p.bits.toNat < signUnit
    · rw [if_pos low] at most
      simp only [signUnit, infinityBits] at *
      omega
    · rw [if_neg low] at least
      simp only [signUnit, infinityBits] at *
      omega
  have finite := isFinite_toFloat small
  have bottom : exactValue (Position.toFloat ⟨9223372036854775808⟩) = 0 := by
    have read : Binary.ofFloat (Position.toFloat ⟨9223372036854775808⟩)
        = .finite true 0 (-1074) := by
      decide
    rw [exactValue_of_read read, Nat.cast_zero, mul_zero, zero_mul]
  have one : IsShare Position.one.toFloat := isShare_one
  refine ⟨finite, ?_, ?_⟩
  · rw [← bottom]
    exact exactValue_le_of_rank_le (by decide) finite (least.trans' (by decide))
  · exact (exactValue_le_of_rank_le finite one.finite most).trans one.most

private theorem isShare_clampUnit (number : p.isNumber = true) : IsShare p.clampUnit.toFloat := by
  have zero : IsShare Position.zero.toFloat := isShare_zero
  have one : IsShare Position.one.toFloat := isShare_one
  unfold Position.clampUnit
  rw [number, Bool.not_true, if_neg Bool.false_ne_true]
  split
  · exact zero
  · rename_i least
    split
    · exact one
    · rename_i most
      exact isShare_of_rank (not_lt.1 least) (not_lt.1 most)

end Number

namespace GradientStop

def onAxis (s : GradientStop) : GradientStop := { s with offset := s.offset.clampUnit }

def IsOnAxis (s : GradientStop) : Prop := IsShare s.offset.toFloat

private theorem isOnAxis_onAxis {s : GradientStop} (number : s.offset.isNumber = true) :
    s.onAxis.IsOnAxis := Number.isShare_clampUnit number

end GradientStop

namespace Gradient

inductive Edit where
  | insert (s : GradientStop)
  | setOffset (index : Nat) (offset : Position)
  | remove (index : Nat)

inductive Reply where
  | nothing
  | moved (there : Bool)
  | stop (taken : Option GradientStop)

def Edit.run (g : Gradient) : Edit → Gradient × Reply
  | insert s => (g.insert s, .nothing)
  | setOffset index offset =>
    match g.setOffset index offset with
    | some h => (h, .moved true)
    | none => (g, .moved false)
  | remove index => ((g.remove index).1, .stop (g.remove index).2)

def edited (g : Gradient) (edits : List Edit) : Gradient :=
  edits.foldl (fun g edit => (edit.run g).1) g

/-- Stops in the total order of their offsets. -/
def Ascending (stops : List GradientStop) : Prop :=
  stops.Pairwise fun s t => s.offset.rank ≤ t.offset.rank

/-- The stops at one place of the total order, as they stand. -/
def atRank (stops : List GradientStop) (r : Int) : List GradientStop :=
  stops.filter fun s => s.offset.rank = r

/-- A list of stops put in order: it has the same stops, and those with equal offsets stand as they
stood. -/
structure Settled (loose stops : List GradientStop) : Prop where
  ascending : Ascending stops
  same : stops.Perm loose
  stable : ∀ r, atRank stops r = atRank loose r

/-- What a step does to a gradient, and what it hands back. Nothing but the stops changes. -/
inductive Effect : Gradient → Edit → Gradient → Reply → Prop
  | inserted {g : Gradient} {s : GradientStop} {stops : List GradientStop}
      (settled : Settled (g.stops ++ [s.onAxis]) stops)
      (behind : atRank stops s.onAxis.offset.rank
        = atRank g.stops s.onAxis.offset.rank ++ [s.onAxis]) :
      Effect g (.insert s) { g with stops := stops } .nothing
  | moved {g : Gradient} {before after stops : List GradientStop} {s : GradientStop}
      {offset : Position} (split : g.stops = before ++ s :: after)
      (settled : Settled (before ++ { s with offset := offset.clampUnit } :: after) stops) :
      Effect g (.setOffset before.length offset) { g with stops := stops } (.moved true)
  | movedNone {g : Gradient} {index : Nat} {offset : Position} (beyond : g.stops.length ≤ index) :
      Effect g (.setOffset index offset) g (.moved false)
  | removed {g : Gradient} {before after : List GradientStop} {s : GradientStop}
      (split : g.stops = before ++ s :: after) :
      Effect g (.remove before.length) { g with stops := before ++ after } (.stop (some s))
  | removedNone {g : Gradient} {index : Nat} (beyond : g.stops.length ≤ index) :
      Effect g (.remove index) g (.stop none)

section

variable {α : Type} {le : α → α → Bool} {p : α → Bool}

private theorem filter_mergeSort (trans : ∀ a b c, le a b → le b c → le a c)
    (total : ∀ a b, le a b || le b a) (alike : ∀ a b, p a → p b → le a b) (items : List α) :
    (items.mergeSort le).filter p = items.filter p := by
  have inOrder : (items.filter p).Pairwise fun a b => le a b = true :=
    List.pairwise_of_forall_mem_list fun a left b right =>
      alike a b (List.mem_filter.1 left).2 (List.mem_filter.1 right).2
  have kept := (List.sublist_mergeSort trans total inOrder List.filter_sublist).filter p
  rw [List.filter_filter] at kept
  simp only [Bool.and_self] at kept
  exact (kept.eq_of_length ((List.mergeSort_perm items le).filter p).length_eq.symm).symm

end

variable {g h : Gradient} {edit : Edit} {reply : Reply} {stops : List GradientStop}

private theorem precedes_iff {s t : GradientStop} :
    s.precedes t = true ↔ s.offset.rank ≤ t.offset.rank :=
  decide_eq_true_iff

theorem sort_settled (stops : List GradientStop) : Settled stops (sort stops) := by
  have trans : ∀ s t u : GradientStop, s.precedes t → t.precedes u → s.precedes u :=
    fun s t u first second => precedes_iff.2 ((precedes_iff.1 first).trans (precedes_iff.1 second))
  have total : ∀ s t : GradientStop, s.precedes t || t.precedes s := fun s t => by
    rw [Bool.or_eq_true, precedes_iff, precedes_iff]
    exact le_total _ _
  refine ⟨?_, List.mergeSort_perm stops _, fun r => ?_⟩
  · exact (List.pairwise_mergeSort trans total stops).imp precedes_iff.1
  · refine filter_mergeSort trans total (fun s t first second => precedes_iff.2 ?_) stops
    rw [of_decide_eq_true first, of_decide_eq_true second]

private theorem Settled.behind {loose : List GradientStop} {s : GradientStop}
    (settled : Settled (loose ++ [s]) stops) :
    atRank stops s.offset.rank = atRank loose s.offset.rank ++ [s] := by
  rw [settled.stable, atRank, List.filter_append]
  simp [atRank]

/-- Each step has its effect. -/
private theorem run_effect (g : Gradient) (edit : Edit) :
    Effect g edit (edit.run g).1 (edit.run g).2 := by
  cases edit with
  | insert s =>
    have settled := sort_settled (g.stops ++ [s.onAxis])
    exact .inserted settled settled.behind
  | setOffset index offset =>
    rw [Edit.run, setOffset]
    by_cases inside : index < g.stops.length
    -- The stop moves in place, and sorting finds its new one.
    · obtain ⟨before, s, after, split, rfl, changed⟩ :=
        List.exists_of_modify (fun s => { s with offset := offset.clampUnit }) inside
      rw [if_pos inside, changed]
      exact .moved split (sort_settled _)
    · rw [if_neg inside]
      exact .movedNone (not_lt.1 inside)
  | remove index =>
    rw [Edit.run, remove]
    by_cases inside : index < g.stops.length
    · obtain ⟨before, after, split, rfl⟩ :
          ∃ before after, g.stops = before ++ g.stops[index] :: after ∧ before.length = index :=
        ⟨g.stops.take index, g.stops.drop (index + 1), by simp, by simp [inside.le]⟩
      have rest : g.stops.eraseIdx before.length = before ++ after := by
        conv_lhs => rw [split]
        rw [List.eraseIdx_append_of_length_le le_rfl, Nat.sub_self, List.eraseIdx_cons_zero]
      rw [List.getElem?_eq_getElem inside, rest]
      exact .removed split
    · rw [List.eraseIdx_of_length_le (not_lt.1 inside), List.getElem?_eq_none (not_lt.1 inside)]
      exact .removedNone (not_lt.1 inside)

private theorem Effect.ascending (effect : Effect g edit h reply) (inOrder : Ascending g.stops) :
    Ascending h.stops := by
  cases effect with
  | inserted settled behind => exact settled.ascending
  | moved split settled => exact settled.ascending
  | movedNone beyond => exact inOrder
  | @removed before after s split =>
    rw [Ascending, split] at inOrder
    exact inOrder.sublist ((List.sublist_cons_self s after).append_left before)
  | removedNone beyond => exact inOrder

private theorem edited_snoc (g : Gradient) (edits : List Edit) (edit : Edit) :
    g.edited (edits ++ [edit]) = (edit.run (g.edited edits)).1 := List.foldl_concat ..

def Edit.IsNumeric : Edit → Prop
  | insert s => s.offset.isNumber = true
  | setOffset _ offset => offset.isNumber = true
  | remove _ => True

private theorem Effect.isOnAxis_or_mem (effect : Effect g edit h reply) (numeric : edit.IsNumeric)
    {s : GradientStop} (held : s ∈ h.stops) : s.IsOnAxis ∨ s ∈ g.stops := by
  cases effect with
  | inserted settled behind =>
    rcases List.mem_append.1 (settled.same.mem_iff.1 held) with old | new
    · exact .inr old
    · obtain rfl := List.mem_singleton.1 new
      exact .inl (GradientStop.isOnAxis_onAxis numeric)
  | @moved before after stops t offset split settled =>
    rcases List.mem_append.1 (settled.same.mem_iff.1 held) with old | rest
    · exact .inr (split ▸ List.mem_append_left _ old)
    · rcases List.mem_cons.1 rest with rfl | old
      · exact .inl (Number.isShare_clampUnit numeric)
      · exact .inr (split ▸ List.mem_append_right _ (List.mem_cons_of_mem t old))
  | movedNone beyond => exact .inr held
  | @removed before after t split =>
    have fewer : (before ++ after).Sublist g.stops :=
      split ▸ (List.sublist_cons_self t after).append_left before
    exact .inr (fewer.subset held)
  | removedNone beyond => exact .inr held

private theorem edited_isOnAxis_or_mem {edits : List Edit}
    (numeric : ∀ edit ∈ edits, edit.IsNumeric)
    {s : GradientStop} (held : s ∈ (g.edited edits).stops) : s.IsOnAxis ∨ s ∈ g.stops := by
  induction edits generalizing g with
  | nil => exact .inr held
  | cons edit edits ih =>
    obtain ⟨first, rest⟩ := List.forall_mem_cons.1 numeric
    rcases ih rest held with on | earlier
    · exact .inl on
    · exact (run_effect g edit).isOnAxis_or_mem first earlier

/-- Steps with offsets that are numbers put stops on the axis only; those off the axis were given.
So all stops are on the axis after any such steps exactly if all that were given are. -/
theorem edited_onAxis_iff (stops : List GradientStop) :
    (∀ edits : List Edit, (∀ edit ∈ edits, edit.IsNumeric) →
      ∀ s ∈ ((ofStops stops).edited edits).stops, s.IsOnAxis ∨ s ∈ stops) ∧
    ((∀ edits : List Edit, (∀ edit ∈ edits, edit.IsNumeric) →
      ∀ s ∈ ((ofStops stops).edited edits).stops, s.IsOnAxis) ↔ ∀ s ∈ stops, s.IsOnAxis) := by
  have given : ∀ s, s ∈ (ofStops stops).stops ↔ s ∈ stops := fun s =>
    (sort_settled stops).same.mem_iff
  have kept : ∀ edits : List Edit, (∀ edit ∈ edits, edit.IsNumeric) →
      ∀ s ∈ ((ofStops stops).edited edits).stops, s.IsOnAxis ∨ s ∈ stops :=
    fun edits numeric s held => (edited_isOnAxis_or_mem numeric held).imp_right (given s).1
  refine ⟨kept, fun all s held => ?_, fun all edits numeric s held => ?_⟩
  · exact all [] (List.forall_mem_nil _) s ((given s).2 held)
  · exact (kept edits numeric s held).elim id (all s)

def beyondEnd : GradientStop := ⟨.ofFloat 2.0, Color.white, 1.0⟩

/-- A stop beyond the end is inserted, and the first one is moved to minus infinity. -/
def farEdits : List Edit :=
  [.insert beyondEnd, .setOffset 0 (.ofFloat (Number.Binary.infinity true))]

theorem edited_onAxis_farEdits :
    (∀ s ∈ standard.stops, s.IsOnAxis) ∧ (∀ edit ∈ farEdits, edit.IsNumeric) ∧
      ∀ s ∈ ((ofStops standard.stops).edited farEdits).stops, s.IsOnAxis := by
  have inserted : beyondEnd.offset.isNumber = true := by decide
  have moved : (Position.ofFloat (Number.Binary.infinity true)).isNumber = true := by decide
  have numeric : ∀ edit ∈ farEdits, edit.IsNumeric :=
    List.forall_mem_cons.2 ⟨inserted, List.forall_mem_singleton.2 moved⟩
  have given : ∀ s ∈ standard.stops, s.IsOnAxis :=
    List.forall_mem_cons.2 ⟨Number.isShare_clampUnit (by decide),
      List.forall_mem_singleton.2 (Number.isShare_clampUnit (by decide))⟩
  exact ⟨given, numeric, (edited_onAxis_iff standard.stops).2.2 given farEdits numeric⟩

/-- A stop given beyond the end of the axis stays there, though its offset is a number. -/
theorem ofStops_beyondEnd :
    beyondEnd.offset.isNumber = true ∧ ¬ ∀ s ∈ (ofStops [beyondEnd]).stops, s.IsOnAxis := by
  refine ⟨by decide, fun all => ?_⟩
  have value : Number.Exact beyondEnd.offset.toFloat (2 : Nat) := .of_test (by decide)
  have most := (all beyondEnd ((sort_settled [beyondEnd]).same.mem_iff.2 (.head _))).most
  rw [value.value] at most
  norm_num at most

end Gradient

end Texture
