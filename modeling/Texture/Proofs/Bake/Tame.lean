/- Texture/Proofs/Bake/Tame
   digest: Tame documents stay so when their additive groups are flattened, so nothing is handed to
   the painter that is not written in decimals. -/

import Texture.Proofs.Bake
import Texture.Proofs.Svg.Tame

set_option autoImplicit false
set_option relaxedAutoImplicit false

namespace Texture

open Svg (AreTame Def Document Numeral)
open Work (Upholds)

def Request.WritesDecimals (q : Request) : Prop := Svg.WritesDecimals q.document.write

namespace Bake

namespace Layers

variable (layers : Layers)

private theorem sum_tame (defs : layers.definitions.AreTame) {children : List Svg.Node}
    (h : AreTame (Svg.Node.numeralsAll children)) :
    (layers.sum children).Upholds Request.WritesDecimals fun _ => True := by
  refine Upholds.bind (Upholds.foldlM (R := fun _ => True) ?_ none trivial) fun bytes _ =>
    Upholds.ofExcept _
  intro below n mem _
  have alone := Svg.Node.areTame_single (Svg.Node.areTame_all.1 h n mem)
  have written : Request.WritesDecimals ⟨⟨layers.canvas.resolution, layers.definitions, none, [n]⟩,
      layers.width, layers.height⟩ := Document.writesDecimals defs alone none
  refine (Upholds.rasterize written).bind fun layer _ => ?_
  exact (Upholds.ofExcept _).map _

mutual

private theorem flatten_tame (defs : layers.definitions.AreTame) {n : Svg.Node}
    (h : AreTame n.numerals) :
    (layers.flatten n).Upholds Request.WritesDecimals fun m => AreTame m.numerals := by
  cases n with
  | shape geometry style =>
    rw [flatten]
    exact Upholds.pure h
  | group effects children =>
    obtain ⟨own, inner⟩ := Svg.areTame_append.1 h
    rw [flatten]
    refine (flattenAll_tame defs inner).bind fun flat below => ?_
    split
    · refine (sum_tame layers defs below).bind fun picture _ => Upholds.pure ?_
      exact Svg.areTame_append.2
        ⟨own, Svg.Node.areTame_single (Svg.areTame_square layers.canvas.resolution)⟩
    · exact Upholds.pure (Svg.areTame_append.2 ⟨own, below⟩)
  | image box address rendering =>
    rw [flatten]
    exact Upholds.pure h

private theorem flattenAll_tame (defs : layers.definitions.AreTame) {ns : List Svg.Node}
    (h : AreTame (Svg.Node.numeralsAll ns)) :
    (layers.flattenAll ns).Upholds Request.WritesDecimals fun ms =>
      AreTame (Svg.Node.numeralsAll ms) := by
  cases ns with
  | nil =>
    rw [flattenAll]
    exact Upholds.pure Svg.areTame_nil
  | cons n ns =>
    obtain ⟨first, rest⟩ := Svg.areTame_append.1 h
    rw [flattenAll]
    refine (flatten_tame defs first).bind fun m hm => ?_
    refine (flattenAll_tame defs rest).bind fun ms hms => Upholds.pure ?_
    exact Svg.areTame_append.2 ⟨hm, hms⟩

end

end Layers

private theorem flattenMasks_tame (canvas : Canvas) (width height : Nat) {done ds : List Def}
    (finished : ∀ d ∈ done, AreTame d.numerals) (h : ∀ d ∈ ds, AreTame d.numerals) :
    (flattenMasks canvas width height done ds).Upholds Request.WritesDecimals fun es =>
      ∀ e ∈ es, AreTame e.numerals := by
  induction ds generalizing done with
  | nil => exact Upholds.pure finished
  | cons d ds ih =>
    have all : Svg.Definitions.AreTame ⟨done ++ d :: ds⟩ := List.forall_mem_append.2 ⟨finished, h⟩
    obtain ⟨front, rest⟩ := List.forall_mem_cons.1 h
    have next : ∀ e : Def, AreTame e.numerals →
        (flattenMasks canvas width height (done ++ [e]) ds).Upholds Request.WritesDecimals fun es =>
          ∀ e ∈ es, AreTame e.numerals := by
      intro e he
      exact ih (List.forall_mem_append.2 ⟨finished, List.forall_mem_singleton.2 he⟩) rest
    cases d with
    | gradient g => exact next (.gradient g) front
    | filter id region primitives => exact next (.filter id region primitives) front
    | mask id region content =>
      obtain ⟨own, inner⟩ := Svg.areTame_append.1 front
      let layers : Layers := ⟨canvas, ⟨done ++ .mask id region content :: ds⟩, width, height⟩
      refine (layers.flattenAll_tame all inner).bind fun flat below => ?_
      exact next (.mask id region flat) (Svg.areTame_append.2 ⟨own, below⟩)

theorem document_tame (rasterizer : Rasterizer) (width height : Nat) {doc : Document}
    (hd : doc.definitions.AreTame) (hc : AreTame (Svg.Node.numeralsAll doc.content)) :
    (document rasterizer width height doc).Upholds Request.WritesDecimals fun _ => True := by
  have flattened : (flatten rasterizer width height doc).Upholds Request.WritesDecimals fun flat =>
      Svg.WritesDecimals flat.write := by
    refine (flattenMasks_tame _ width height (List.forall_mem_nil _) hd).bind fun ds masks => ?_
    let layers : Layers := ⟨⟨doc.resolution, rasterizer⟩, ⟨ds⟩, width, height⟩
    refine (layers.flattenAll_tame masks hc).bind fun ns content => Upholds.pure ?_
    exact Document.writesDecimals masks content doc.background
  exact flattened.bind fun flat written => Upholds.rasterize written

end Bake

theorem Artifact.bake_tame {canvas : Canvas} (size : Nat) {a : Artifact} (h : a.IsTame) :
    (a.bake canvas size).Upholds Request.WritesDecimals fun _ => True := by
  have f := h.toFragment (r := canvas.resolution)
  rcases a.bake_cases canvas size with ⟨p, rendering, -, -, taken⟩ | painted
  · rw [taken]
    exact Upholds.pure trivial
  · rw [painted]
    exact Bake.document_tame _ size size f.definitions f.nodes

end Texture
