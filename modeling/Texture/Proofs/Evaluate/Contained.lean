/- Texture/Proofs/Evaluate/Contained
   digest: Blends are contained in every artifact that a walk computes, and no painter is ever asked
   to add a group to anything. -/

import Texture.Proofs.Evaluate.Kept
import Texture.Proofs.Operator.Contained

set_option autoImplicit false
set_option relaxedAutoImplicit false

namespace Texture

open Work (Upholds)

namespace Evaluate

variable {g : Graph} {canvas : Canvas} {root : Option String} {s : Session}

private theorem contained_kept
    (canvas : Canvas) : Kept canvas Request.IsSound Artifact.Contained where
  empty := Artifact.Contained.empty
  apply settings _ h := settings.apply_contains ⟨h .only, h .first, h .second⟩

private theorem Computed.contained {b : Artifact} (computed : Computed g canvas root s b) :
    b.Contained := computed.kept (contained_kept canvas)

private theorem picture_after {a : Artifact} {t : Session}
    (yields : (artifact g canvas root).Yields s a t) :
    (picture g canvas root).after s =
      (Bake.document canvas.rasterizer canvas.resolution.pixels canvas.resolution.pixels
        (a.toDocument canvas.resolution (some background))).after t := by
  rw [picture, document, bind_assoc, Work.after_bind, yields]
  rfl

private theorem picture_upholds (g : Graph) (canvas : Canvas) (root : Option String) :
    (picture g canvas root).Upholds Request.IsSound fun _ => True := by
  simp only [picture, document, bind_assoc, pure_bind]
  exact (artifact_keeps (contained_kept canvas) g root).bind fun a h =>
    Bake.document_upholds _ _ _ (h.toDocument _)

/-- In every artifact that a walk computes, blends are contained. Whoever has one painted, alone or
over a colour, first hands over single nodes on nothing, inside of which no group is added, and then
a document in which no group is added at all; pixels of the right size are not painted again. This
holds of the pixels of the graph, and of everything else that is painted on the way. -/
theorem artifact_contained (g : Graph) (canvas : Canvas) (root : Option String) (s : Session) :
    (∀ a, Computed g canvas root s a → a.Contained ∧
      (∀ rasterizer width height r background,
        (Bake.document rasterizer width height (a.toDocument r background)).HandsOver) ∧
      ∀ size, (∃ p rendering, a = .raster p rendering ∧ a.bake canvas size = pure p) ∨
        (a.bake canvas size).HandsOver) ∧
    (∀ a t, (artifact g canvas root).Yields s a t → Computed g canvas root s a ∧
      (picture g canvas root).after s =
        (Bake.document canvas.rasterizer canvas.resolution.pixels canvas.resolution.pixels
          (a.toDocument canvas.resolution (some background))).after t) ∧
    s.Adds Request.IsSound ((picture g canvas root).after s).2 := by
  refine ⟨?_, ?_, (picture_upholds g canvas root).asks s⟩
  · intro a computed
    have contained := computed.contained
    refine ⟨contained, ?_, ?_⟩
    · intro rasterizer width height r background
      exact Bake.document_handsOver _ _ _ (contained.toDocument background)
    · intro size
      have paints := Bake.document_handsOver canvas.rasterizer size size
        (contained.toDocument (r := canvas.resolution) none)
      cases a with
      | vector f => exact Or.inr paints
      | raster p rendering =>
        by_cases fits : p.width = size ∧ p.height = size
        · exact Or.inl ⟨p, rendering, rfl, if_pos fits⟩
        -- A picture of another size is painted like any document.
        · refine Or.inr ?_
          have plain : (Artifact.raster p rendering).bake canvas size =
              Bake.document canvas.rasterizer size size
                ((Artifact.raster p rendering).toDocument canvas.resolution none) := if_neg fits
          rwa [plain]
  · intro a t yields
    refine ⟨?_, picture_after yields⟩
    obtain ⟨⟨b, memo⟩, u, walked, last⟩ := (Work.yields_bind _ _ _ _ _).mp yields
    obtain ⟨rfl, rfl⟩ := (Work.yields_pure _ _ _ _).mp last
    exact walk_computed walked

def shiftedUnion : Graph where
  nodes := [⟨"out", .output, []⟩, ⟨"move", .translate, []⟩, ⟨"both", .add, []⟩,
    ⟨"large", .pixelate, []⟩, ⟨"sum", .add, []⟩, ⟨"one", .circle, []⟩, ⟨"two", .circle, []⟩]
  edges := [⟨"1", "move", "out", "out", "in"⟩, ⟨"2", "both", "out", "move", "in"⟩,
    ⟨"3", "large", "out", "both", "a"⟩, ⟨"4", "sum", "out", "both", "b"⟩,
    ⟨"5", "sum", "out", "large", "in"⟩, ⟨"6", "one", "out", "sum", "a"⟩,
    ⟨"7", "two", "out", "sum", "b"⟩]

theorem artifact_shiftedUnion :
    ∃ f t, (artifact shiftedUnion ⟨.standard, fun _ _ => .error (.other "")⟩ none).Yields
        Session.start (.vector f) t ∧
      ¬ Svg.Node.Unadded f.nodes ∧ f.Contained ∧
      (Bake.document (fun _ _ => .error (.other "")) 512 512
        ((Artifact.vector f).toDocument .standard (some background))).HandsOver := by
  have run : ∃ f t, (artifact shiftedUnion ⟨.standard, fun _ _ => .error (.other "")⟩ none).Yields
      Session.start (.vector f) t ∧ ¬ Svg.Node.Unadded f.nodes := by
    refine ⟨_, _, rfl, ?_⟩
    rintro ⟨⟨-, ⟨-, ⟨-, -⟩, ⟨added, -⟩, -⟩, -⟩, -⟩
    exact added rfl
  obtain ⟨f, t, yields, added⟩ := run
  obtain ⟨computed, exports, -⟩ :=
    artifact_contained shiftedUnion ⟨.standard, fun _ _ => .error (.other "")⟩ none Session.start
  obtain ⟨contained, paints, -⟩ := computed _ (exports _ t yields).1
  exact ⟨f, t, yields, added, contained, paints _ _ _ _ _⟩

end Evaluate

end Texture
