/- Texture/Proofs/Evaluate/Premultiplied
   digest: With a painter of valid pictures, every picture of an evaluation is valid: those of the
   nodes, those that are embedded on the way, and those that are handed out. -/

import Texture.Proofs.Evaluate.Contained
import Texture.Proofs.Evaluate.Cause
import Texture.Proofs.Operator.Premultiplied

set_option autoImplicit false
set_option relaxedAutoImplicit false

namespace Texture.Evaluate

variable {canvas : Canvas}

private theorem valid_kept (painter : canvas.rasterizer.IsValid) :
    Kept canvas (fun _ => True) Artifact.Valid where
  empty := trivial
  apply settings _ h := settings.apply_validates painter (h .only)

/-- If the painter only answers with valid pictures, then all pictures that a walk computes are
valid, the one that it ends with among them, and so are those that any of its artifacts is painted
to, and the pixels of the graph. So is the sum of the children of an additive group, as large as the
document is painted, and nowhere on the way are other bitmaps shown than those of the document and
such pictures. Of an upload nothing is asked but that its straight pixels are complete. -/
theorem artifact_premultiplied (g : Graph) (canvas : Canvas) (root : Option String) (s : Session)
    (painter : canvas.rasterizer.IsValid) :
    (∀ p rendering, Computed g canvas root s (.raster p rendering) → p.Valid) ∧
    (∀ a t, (artifact g canvas root).Yields s a t → Computed g canvas root s a) ∧
    (∀ a size, Computed g canvas root s a → (a.bake canvas size).Ensures Picture.Valid) ∧
    (picture g canvas root).Ensures Picture.Valid ∧
    (∀ definitions width height children,
      (Bake.Layers.sum ⟨canvas, definitions, width, height⟩ children).Ensures fun p =>
        p.Valid ∧ p.width = width ∧ p.height = height) ∧
    (∀ width height doc, (Bake.document canvas.rasterizer width height doc).Upholds
      (Request.Shows (Bake.IsOwnOrSum doc width height)) Picture.Valid) ∧
    (∀ width height bytes p,
      Picture.ofBytes width height (Buffer.map Pixel.premultiply bytes) = .ok p → p.Valid) := by
  have computed : ∀ a, Computed g canvas root s a → a.Valid :=
    fun a made => made.kept (valid_kept painter)
  refine ⟨fun p rendering => computed _, fun a t => artifact_computed, ?_, ?_, ?_, ?_, ?_⟩
  · intro a size made
    exact (Artifact.bake_valid painter size (computed a made)).ensures
  · rw [picture]
    exact (Work.Ensures.trivial _).bind fun doc _ =>
      (Bake.document_valid painter _ _ doc).ensures
  · intro definitions width height children
    exact Bake.Layers.sum_valid painter children
  · intro width height doc
    exact Bake.document_valid painter width height doc
  · intro width height bytes p made
    exact Picture.ofStraight_valid made

def tinted : Rasterizer := fun _ request =>
  if edges : EdgesInRange request.width request.height then
    .ok (Picture.ofPixels request.width request.height edges fun _ _ => ⟨1, 2, 3, 4⟩)
  else .error (Picture.edgesFault request.width request.height)

private theorem tinted_isValid : tinted.IsValid := by
  intro earlier request p answered
  unfold tinted at answered
  split at answered
  · rename_i edges
    rw [← Except.ok.inj answered]
    refine Picture.ofPixels_valid edges fun _ _ => ?_
    unfold Pixel.IsPremultiplied
    decide
  · simp at answered

def tintedCanvas : Canvas := ⟨⟨8, by decide, by decide⟩, tinted⟩

def isPainted (outcome : Except Fault Artifact × Session) (wishes : Nat) : Bool :=
  match outcome with
  | (.ok (.raster _ _), t) => t.requests.length == wishes
  | _ => false

theorem artifact_tintedUnion :
    tintedCanvas.rasterizer.IsValid ∧
      ∃ p rendering t, (artifact bentUnion tintedCanvas none).Yields Session.start
        (.raster p rendering) t ∧ p.Valid ∧ t.requests.length = 4 := by
  obtain ⟨valid, returned, -⟩ :=
    artifact_premultiplied bentUnion tintedCanvas none Session.start tinted_isValid
  have painted : isPainted ((artifact bentUnion tintedCanvas none).after Session.start) 4 = true :=
    by decide +kernel
  rcases outcome : (artifact bentUnion tintedCanvas none).after Session.start with
    ⟨e | f | ⟨p, rendering⟩, t⟩
  · simp [isPainted, outcome] at painted
  · simp [isPainted, outcome] at painted
  · have asked : t.requests.length = 4 := by simpa [isPainted, outcome] using painted
    exact ⟨tinted_isValid, p, rendering, t, outcome, valid p rendering (returned _ t outcome), asked⟩

end Texture.Evaluate
