/- Texture/Proofs/Evaluate/Tame
   digest: The numbers of compiled documents: none outside of outlines is a zero with a sign, and
   all are decimals as long as no parameter comes near the largest floats. -/

import Texture.Proofs.Evaluate.Kept
import Texture.Proofs.Operator.Tame

set_option autoImplicit false
set_option relaxedAutoImplicit false

namespace Texture.Evaluate

open Work (Upholds)

private theorem tame_kept (canvas : Canvas) :
    KeptFor Settings.IsModest canvas Request.WritesDecimals Artifact.IsTame where
  empty := Artifact.IsTame.empty
  apply _ _ modest h := Settings.apply_tames modest ⟨h .only, h .first, h .second⟩

private theorem artifact_tame {g : Graph} (modest : ∀ n ∈ g.nodes, n.bag.IsModest) (canvas : Canvas)
    (root : Option String) :
    (artifact g canvas root).Upholds Request.WritesDecimals Artifact.IsTame :=
  artifact_keeps_for (tame_kept canvas) g
    (fun n mem => Settings.ofBag_isModest (modest n mem) n.operator) root

private theorem toDocument_writesDecimals {a : Artifact} (h : a.IsTame) (r : Resolution)
    (background : Option Color) : Svg.WritesDecimals (a.toDocument r background).write := by
  have f := h.toFragment (r := r)
  exact Svg.Document.writesDecimals f.definitions f.nodes background

/-- In the text of a document every number outside of outlines is other than a zero with a sign, and
all numbers are decimals just if every float of the document is finite in an outline and, if it is
finite, stays so when it is scaled by ten thousand to be rounded elsewhere. If the numbers of all
bags are within a power of two that leaves room for the arithmetic of all operators, then all
numbers are decimals: in the compiled document, in those that are painted on the way, and in the
last one. -/
theorem document_writesDecimals (g : Graph) (canvas : Canvas) (root : Option String) :
    (∀ doc : Svg.Document,
      Svg.HoldsOfText (fun outline w => outline = false → w ≠ "-0".toList) doc.write ∧
      (Svg.WritesDecimals doc.write ↔ ∀ n ∈ doc.numerals, n.IsTame)) ∧
    ((∀ n ∈ g.nodes, n.bag.IsModest) →
      (document g canvas root).Upholds Request.WritesDecimals
        (fun doc => Svg.WritesDecimals doc.write) ∧
      (picture g canvas root).Upholds Request.WritesDecimals fun _ => True) := by
  constructor
  · intro doc
    exact ⟨doc.write_holds.2 fun n _ => Svg.Numeral.text_ne, doc.writesDecimals_iff⟩
  · intro modest
    have tame := artifact_tame modest canvas root
    constructor
    · rw [document]
      exact tame.bind fun a h => Upholds.pure (toDocument_writesDecimals h _ _)
    · simp only [picture, document, bind_assoc, pure_bind]
      refine tame.bind fun a h => ?_
      have f := h.toFragment (r := canvas.resolution)
      exact Bake.document_tame _ _ _ f.definitions f.nodes

def strokeBag (width : Float) : Bag := [("width", .number (.real width))]

def stroked (width : Float) : Graph where
  nodes := [⟨"out", .output, []⟩, ⟨"line", .stroke, strokeBag width⟩, ⟨"box", .rectangle, []⟩]
  edges := [⟨"1", "line", "out", "out", "in"⟩, ⟨"2", "box", "out", "line", "in"⟩]

def unpainted : Canvas := ⟨.standard, fun _ _ => .error (.other "")⟩

private theorem document_stroked (width : Float) : ∃ doc t,
    (document (stroked width) unpainted none).Yields Session.start doc t ∧
      .short (((strokeBag width).size? "width").getD 1.0) ∈ doc.numerals := by
  refine ⟨_, _, rfl, ?_⟩
  have painted : ∀ (fill stroke : Svg.Paint) (x y : Float),
      .short x ∈ Svg.Style.numerals ⟨fill, none, stroke, some x, some y⟩ :=
    fun _ _ _ _ => List.mem_cons_self
  exact List.mem_append_right _ (List.mem_append_right _ (List.mem_append_left _
    (List.mem_append_right _ (painted _ _ _ _))))

private theorem strokeBag_isModest {width : Float} (h : Number.Within 960 width) :
    (strokeBag width).IsModest := by
  intro key x read
  obtain ⟨v, held, rest⟩ := Option.bind_eq_some_iff.1 read
  obtain rfl : Json.number (.real width) = v := by
    have found : (strokeBag width).get? key = some v := held
    simp only [strokeBag, Bag.get?, List.lookup_cons, List.lookup_nil] at found
    split at found
    · exact Option.some.inj found
    · cases found
  have tested : (if Number.Binary.isFinite width then some width else none) = some x := rest
  rw [if_pos h.finite] at tested
  rwa [← Option.some.inj tested]

theorem document_thinStroke :
    (∀ n ∈ (stroked 2.0).nodes, n.bag.IsModest) ∧
      ∃ doc t, (document (stroked 2.0) unpainted none).Yields Session.start doc t ∧
        Svg.WritesDecimals doc.write := by
  have two : Number.Within 960 2.0 := .of_test (by decide +kernel)
  have empty : Bag.IsModest [] := fun key x read => by cases read
  have modest : ∀ n ∈ (stroked 2.0).nodes, n.bag.IsModest := by
    rw [stroked, List.forall_mem_cons, List.forall_mem_cons, List.forall_mem_singleton]
    exact ⟨empty, strokeBag_isModest two, empty⟩
  obtain ⟨doc, t, yields, -⟩ := document_stroked 2.0
  obtain ⟨-, bounded⟩ := document_writesDecimals (stroked 2.0) unpainted none
  exact ⟨modest, doc, t, yields, (bounded modest).1.ensures _ _ _ yields⟩

/-- A width that is finite and overflows when it is scaled to be rounded. -/
theorem document_wideStroke :
    ∃ doc t, (document (stroked 1e305) unpainted none).Yields Session.start doc t ∧
      ¬Svg.WritesDecimals doc.write := by
  obtain ⟨doc, t, yields, mem⟩ := document_stroked 1e305
  refine ⟨doc, t, yields, fun written => ?_⟩
  have tame := doc.writesDecimals_iff.1 written _ mem
  have finite : Number.Binary.isFinite (((strokeBag 1e305).size? "width").getD 1.0) = true := by
    decide +kernel
  have infinite :
      Number.Binary.isFinite ((((strokeBag 1e305).size? "width").getD 1.0) * 1e4) = false := by
    decide +kernel
  rw [tame finite] at infinite
  cases infinite

end Texture.Evaluate
