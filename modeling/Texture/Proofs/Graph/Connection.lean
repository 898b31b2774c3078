/- Texture/Proofs/Graph/Connection
   digest: Which edges end at an input once another one is connected to it, and which of them the
   evaluation reads. -/

import Mathlib.Tactic.Common
import Texture.Graph.Index

set_option autoImplicit false
set_option relaxedAutoImplicit false

namespace Texture

theorem Edge.feeds_iff {e : Edge} {target handle : String} :
    e.feeds target handle = true ↔ e.target = target ∧ e.targetHandle = handle := by
  simp [Edge.feeds]

namespace Graph

def supplies (g : Graph) (target handle : String) : List Edge :=
  g.edges.filter fun e => e.feeds target handle

section

variable {α : Type} {p q : α → Bool}

private theorem filter_eraseP_self (items : List α) :
    (items.eraseP p).filter p = (items.filter p).tail := by
  induction items with
  | nil => rfl
  | cons a items ih =>
    cases hit : p a with
    | true => rw [List.eraseP_cons_of_pos hit, List.filter_cons_of_pos hit, List.tail_cons]
    | false =>
      have miss : ¬ p a = true := by simp [hit]
      rw [List.eraseP_cons_of_neg miss, List.filter_cons_of_neg miss,
        List.filter_cons_of_neg miss, ih]

private theorem filter_eraseP_of_apart (apart : ∀ a, p a = true → q a = false) (items : List α) :
    (items.eraseP p).filter q = items.filter q := by
  induction items with
  | nil => rfl
  | cons a items ih =>
    cases hit : p a with
    | true =>
      have miss : ¬ q a = true := by simp [apart a hit]
      rw [List.eraseP_cons_of_pos hit, List.filter_cons_of_neg miss]
    | false =>
      have still : ¬ p a = true := by simp [hit]
      rw [List.eraseP_cons_of_neg still, List.filter_cons, List.filter_cons, ih]

end

variable {g : Graph} {e : Edge} {target handle : String}

theorem incoming?_eq_head? (g : Graph) (target handle : String) :
    g.incoming? target handle = (g.supplies target handle).head? := List.head?_filter.symm

private theorem supplies_connect (g : Graph) (e : Edge) (target handle : String) :
    (g.connect e).1.supplies target handle =
      if e.feeds target handle then (g.supplies target handle).tail ++ [e]
      else g.supplies target handle := by
  have taken : (g.connect e).1.edges =
      g.edges.eraseP (fun old => old.feeds e.target e.targetHandle) ++ [e] := rfl
  rw [supplies, taken, List.filter_append]
  split
  · rename_i into
    have last : [e].filter (fun other => other.feeds target handle) = [e] := by simp [into]
    rw [last]
    obtain ⟨rfl, rfl⟩ := Edge.feeds_iff.mp into
    rw [filter_eraseP_self]
    rfl
  · rename_i elsewhere
    have last : [e].filter (fun other => other.feeds target handle) = [] := by simp [elsewhere]
    rw [last, List.append_nil]
    refine filter_eraseP_of_apart (fun old into => ?_) g.edges
    obtain ⟨sameTarget, sameHandle⟩ := Edge.feeds_iff.mp into
    rw [Bool.eq_false_iff]
    intro other
    rw [Edge.feeds, sameTarget, sameHandle] at other
    exact elsewhere other

private theorem incoming?_connect (g : Graph) (e : Edge) :
    (g.connect e).1.incoming? e.target e.targetHandle =
      some ((g.supplies e.target e.targetHandle)[1]?.getD e) := by
  have into : e.feeds e.target e.targetHandle = true := Edge.feeds_iff.mpr ⟨rfl, rfl⟩
  rw [incoming?_eq_head?, supplies_connect, if_pos into]
  rcases g.supplies e.target e.targetHandle with _ | ⟨first, _ | ⟨second, rest⟩⟩ <;> rfl

/-- A new connection takes out the first edge of its input and goes behind the others. So it is the
only edge there exactly if there was at most one before, and then evaluation takes its source for the
producer; if there were more, evaluation goes on with the source of the second of them. -/
theorem connect_takesEffect (g : Graph) (e : Edge) :
    (g.connect e).1.supplies e.target e.targetHandle =
        (g.supplies e.target e.targetHandle).tail ++ [e] ∧
      ((g.connect e).1.supplies e.target e.targetHandle = [e] ↔
        (g.supplies e.target e.targetHandle).length ≤ 1) ∧
      ((g.supplies e.target e.targetHandle).length ≤ 1 →
        (g.connect e).1.incoming? e.target e.targetHandle = some e ∧
          (g.connect e).1.index.producer? e.target e.targetHandle = some e.source) ∧
      (∀ second, (g.supplies e.target e.targetHandle)[1]? = some second →
        (g.connect e).1.incoming? e.target e.targetHandle = some second ∧
          (g.connect e).1.index.producer? e.target e.targetHandle = some second.source) := by
  have into : e.feeds e.target e.targetHandle = true := Edge.feeds_iff.mpr ⟨rfl, rfl⟩
  have edges := supplies_connect g e e.target e.targetHandle
  rw [if_pos into] at edges
  have fed := incoming?_connect g e
  refine ⟨edges, ?_, ?_, ?_⟩
  · rw [edges, List.append_left_eq_self, ← List.length_eq_zero_iff, List.length_tail]
    omega
  · intro few
    have none : (g.supplies e.target e.targetHandle)[1]? = none := List.getElem?_eq_none few
    rw [index_producer?, fed, none]
    exact ⟨rfl, rfl⟩
  · intro second found
    rw [index_producer?, fed, found]
    exact ⟨rfl, rfl⟩

def fromLevel (id source : String) : Edge := ⟨id, source, "out", "out", "in"⟩

def levels (edges : List Edge) : Graph where
  nodes := [⟨"a", .value, []⟩, ⟨"b", .value, []⟩, ⟨"c", .value, []⟩, ⟨"out", .output, []⟩]
  edges := edges

theorem connect_inPlaceOfOne :
    ((levels [fromLevel "1" "a"]).supplies "out" "in").length ≤ 1 ∧
      ((levels [fromLevel "1" "a"]).connect (fromLevel "2" "b")).1.index.producer? "out" "in" =
        some "b" := by
  have few : ((levels [fromLevel "1" "a"]).supplies "out" "in").length ≤ 1 := by decide +kernel
  obtain ⟨-, -, fed, -⟩ := connect_takesEffect (levels [fromLevel "1" "a"]) (fromLevel "2" "b")
  exact ⟨few, (fed few).2⟩

/-- Where two edges end at an input, a third one neither is alone there nor read. -/
theorem connect_behindAnother :
    ((levels [fromLevel "1" "a", fromLevel "2" "b"]).connect (fromLevel "3" "c")).1.supplies
        "out" "in" ≠ [fromLevel "3" "c"] ∧
      ((levels [fromLevel "1" "a", fromLevel "2" "b"]).connect (fromLevel "3" "c")).1.incoming?
        "out" "in" ≠ some (fromLevel "3" "c") ∧
      ((levels [fromLevel "1" "a", fromLevel "2" "b"]).connect (fromLevel "3" "c")).1.index.producer?
        "out" "in" = some "b" := by
  decide +kernel

end Graph

end Texture
