/- Texture/Proofs/Operator/Polar
   digest: Pictures bent round: every pixel is the one its place asks for or clear, in whatever
   order the rows are painted, and a turn just below zero leaves places of the disc clear. -/

import Texture.Operator.Polar
import Texture.Proofs.Buffer
import Texture.Proofs.Number.Remainder

set_option autoImplicit false
set_option relaxedAutoImplicit false

namespace Texture.Polar

open Float.Model.UnpackedFloat
open Number (Exact IsFraction IsJustBelow exactValue)
open Number.Binary (isFinite ofNat remainderOne)

/-- The buffer holds the pixels of some places, and is clear everywhere else. -/
structure Painted (s : PolarSettings) (p : Picture) (places : List (Nat × Nat))
    (bytes : ByteArray) : Prop where
  size : bytes.size = p.width * p.height * 4
  done : ∀ x < p.width, ∀ y < p.height, (x, y) ∈ places →
    Buffer.pixelAt bytes (y * p.width + x) = pixelFor s p x y
  rest : ∀ x < p.width, ∀ y < p.height, (x, y) ∉ places →
    Buffer.pixelAt bytes (y * p.width + x) = Pixel.clear

variable {s : PolarSettings} {p : Picture} {x y edge : Nat} {u v : Float} {bytes : ByteArray}

/-! Coordinates of the unit square. -/

private theorem isInside_iff : isInside u = true ↔ IsFraction u := by
  have zero : isFinite 0.0 = true := by decide
  have one : isFinite 1.0 = true := by decide
  rw [isInside, Bool.and_eq_true, decide_eq_true_iff, decide_eq_true_iff]
  by_cases finite : isFinite u = true
  · rw [Number.le_iff zero finite, Number.lt_iff finite one, Number.exactValue_zero,
      Number.exactValue_one]
    exact ⟨fun ⟨least, less⟩ => ⟨finite, least, less⟩, fun h => ⟨h.least, h.less⟩⟩
  · refine ⟨fun ⟨least, less⟩ => absurd ?_ finite, fun h => absurd h.finite finite⟩
    rw [Number.le_iff_compare] at least
    rw [Number.lt_iff_compare] at less
    rw [Number.isFinite_eq]
    cases unpacked : u.toModel.unpack with
    | notANumber =>
      rw [unpacked] at less
      cases less
    | infinity sign =>
      rw [unpacked] at least less
      cases sign with
      | positive => cases less
      | negative => cases least
    | zero sign => rfl
    | finite sign m e positive => rfl

private theorem indexAt_lt (u : Float) (long : 0 < edge) : indexAt u edge < edge := by
  rw [indexAt]
  omega

private theorem pixel?_remap (s : PolarSettings) (hx : x < p.width) (hy : y < p.height) :
    (remap s p).pixel? x y = some (pixelFor s p x y) := by
  have inside : x < (remap s p).width ∧ y < (remap s p).height := ⟨hx, hy⟩
  rw [Picture.pixel?, if_pos inside]
  exact congrArg some (Picture.pixelAt_ofPixels p.edges (pixelFor s p) hx hy)

private theorem pixel?_remap_inside {place : Plane.Point}
    (here : sourcePlace s (centreOf x p.width) (centreOf y p.height) = place)
    (hx : x < p.width) (hy : y < p.height) (inside : IsFraction place.x ∧ IsFraction place.y) :
    (remap s p).pixel? x y = p.pixel? (indexAt place.x p.width) (indexAt place.y p.height) := by
  have within : indexAt place.x p.width < p.width ∧ indexAt place.y p.height < p.height :=
    ⟨indexAt_lt _ p.edges.1.1, indexAt_lt _ p.edges.2.1⟩
  rw [pixel?_remap s hx hy, pixelFor, here, Picture.pixel?, if_pos within]
  simp only [isInside_iff.2 inside.1, isInside_iff.2 inside.2, Bool.and_self, if_true]

private theorem pixel?_remap_outside {place : Plane.Point}
    (here : sourcePlace s (centreOf x p.width) (centreOf y p.height) = place)
    (hx : x < p.width) (hy : y < p.height) (outside : ¬(IsFraction place.x ∧ IsFraction place.y)) :
    (remap s p).pixel? x y = some Pixel.clear := by
  have missing : ¬(isInside place.x && isInside place.y) = true := by
    rwa [Bool.and_eq_true, isInside_iff, isInside_iff]
  rw [pixel?_remap s hx hy, pixelFor, here, if_neg missing]

/-! Rows painted one after the other. -/

/-- The angle of a place about the centre, in turns from the top and scaled. -/
def scaledTurn (s : PolarSettings) (u v : Float) : Float :=
  (Number.Angle.ofVector (v - 0.5 - s.offsetY) (u - 0.5 - s.offsetX) + Plane.quarterTurn)
    / Plane.fullTurn * s.angularScale

def angleAt (s : PolarSettings) (u v : Float) : Float := remainderOne (scaledTurn s u v)

/-- The distance of a place from the centre, in halves of the edge and scaled. -/
def radiusAt (s : PolarSettings) (u v : Float) : Float :=
  Number.Root.hypotenuse (u - 0.5 - s.offsetX) (v - 0.5 - s.offsetY) * 2.0 * s.radialScale

def IsSolid (p : Picture) : Prop := ∀ column row q, p.pixel? column row = some q → q.alpha ≠ 0

private theorem sourcePlace_eq (s : PolarSettings) (u v : Float) : sourcePlace s u v =
    match s.mode with
    | .rectToPolar => ⟨angleAt s u v, radiusAt s u v⟩
    | .polarToRect => ⟨radiusAt s u v, angleAt s u v⟩ := rfl

private theorem sourcePlace_isFraction (s : PolarSettings) (u v : Float) :
    IsFraction (sourcePlace s u v).x ∧ IsFraction (sourcePlace s u v).y ↔
      IsFraction (angleAt s u v) ∧ IsFraction (radiusAt s u v) := by
  rw [sourcePlace_eq]
  cases s.mode with
  | rectToPolar => exact Iff.rfl
  | polarToRect => exact and_comm

private theorem angleAt_settles (finite : isFinite (scaledTurn s u v) = true) :
    (¬IsJustBelow (scaledTurn s u v) → IsFraction (angleAt s u v)) ∧
      (IsJustBelow (scaledTurn s u v) → Exact (angleAt s u v) 1) :=
  ⟨Number.remainderOne_isFraction finite, Number.remainderOne_of_isJustBelow finite⟩

private theorem angleAt_isFraction_iff (finite : isFinite (scaledTurn s u v) = true) :
    IsFraction (angleAt s u v) ↔ ¬IsJustBelow (scaledTurn s u v) := by
  refine ⟨fun inside close => ?_, (angleAt_settles finite).1⟩
  have less := inside.less
  rw [((angleAt_settles finite).2 close).value] at less
  exact less.false

/-- A place in the disc gets a pixel of the picture unless its turn is just below zero, where no
pixel lies at its angle. -/
theorem remap_seam (s : PolarSettings) (p : Picture) :
    (∀ u v, isFinite (scaledTurn s u v) = true →
      (¬IsJustBelow (scaledTurn s u v) → IsFraction (angleAt s u v)) ∧
      (IsJustBelow (scaledTurn s u v) → Exact (angleAt s u v) 1)) ∧
    ∀ x < p.width, ∀ y < p.height, ∀ u v, centreOf x p.width = u → centreOf y p.height = v →
      isFinite (scaledTurn s u v) = true →
        (¬IsJustBelow (scaledTurn s u v) → IsFraction (radiusAt s u v) →
          ∃ column < p.width, ∃ row < p.height, (remap s p).pixel? x y = p.pixel? column row) ∧
        (IsSolid p → ((∃ q, (remap s p).pixel? x y = some q ∧ q.alpha ≠ 0) ↔
          ¬IsJustBelow (scaledTurn s u v) ∧ IsFraction (radiusAt s u v))) := by
  refine ⟨fun u v => angleAt_settles, ?_⟩
  rintro x hx y hy u v rfl rfl finite
  have found := sourcePlace_isFraction s (centreOf x p.width) (centreOf y p.height)
  rw [angleAt_isFraction_iff finite] at found
  refine ⟨fun apart inside => ?_, fun solid => ⟨fun ⟨q, shown, visible⟩ => ?_, fun inside => ?_⟩⟩
  · exact ⟨_, indexAt_lt _ p.edges.1.1, _, indexAt_lt _ p.edges.2.1,
      pixel?_remap_inside rfl hx hy (found.2 ⟨apart, inside⟩)⟩
  · by_contra outside
    rw [pixel?_remap_outside rfl hx hy (mt found.1 outside)] at shown
    exact visible (Option.some.inj shown ▸ rfl)
  · have source := pixel?_remap_inside rfl hx hy (found.2 inside)
    have there := pixel?_remap s hx hy
    exact ⟨_, there, solid _ _ _ (source.symm.trans there)⟩

def white : Picture := .ofPixels 2 2 (by decide) fun _ _ => ⟨255, 255, 255, 255⟩

private theorem white_isSolid : IsSolid white := by
  intro column row q held
  unfold Picture.pixel? at held
  split at held
  · rename_i inside
    have shown := (Option.some.inj held).symm.trans
      (Picture.pixelAt_ofPixels white.edges (fun _ _ => ⟨255, 255, 255, 255⟩) inside.1 inside.2)
    rw [shown]
    decide
  · cases held

theorem remap_seam_white :
    isFinite (scaledTurn {} (centreOf 0 white.width) (centreOf 0 white.height)) = true ∧
      ¬IsJustBelow (scaledTurn {} (centreOf 0 white.width) (centreOf 0 white.height)) ∧
      IsFraction (radiusAt {} (centreOf 0 white.width) (centreOf 0 white.height)) ∧
      IsFraction (angleAt {} (centreOf 0 white.width) (centreOf 0 white.height)) ∧
      ∃ q, (remap {} white).pixel? 0 0 = some q ∧ q.alpha ≠ 0 := by
  have finite : isFinite
      (scaledTurn {} (centreOf 0 white.width) (centreOf 0 white.height)) = true := by
    decide +kernel
  -- The first pixel lies an eighth of a turn before the top.
  have apart : ¬IsJustBelow (scaledTurn {} (centreOf 0 white.width) (centreOf 0 white.height)) :=
    Number.Beyond.not_isJustBelow (.of_test (by decide +kernel))
  have inside : IsFraction (radiusAt {} (centreOf 0 white.width) (centreOf 0 white.height)) :=
    isInside_iff.1 (by decide +kernel)
  obtain ⟨angles, pixels⟩ := remap_seam {} white
  exact ⟨finite, apart, inside, (angles _ _ finite).1 apart,
    ((pixels 0 (by decide) 0 (by decide) _ _ rfl rfl finite).2 white_isSolid).2 ⟨apart, inside⟩⟩

/-- At a small angular scale the turns of the upper left quarter of the disc lie just below zero. -/
def slow : PolarSettings := { angularScale := 1e-20 }

theorem angleAt_slow :
    isFinite (scaledTurn slow (centreOf 0 white.width) (centreOf 0 white.height)) = true ∧
      IsFraction (radiusAt slow (centreOf 0 white.width) (centreOf 0 white.height)) ∧
      ¬exactValue (angleAt slow (centreOf 0 white.width) (centreOf 0 white.height)) < 1 ∧
      IsSolid white ∧ (remap slow white).pixel? 0 0 = some Pixel.clear := by
  have whole : Exact (angleAt slow (centreOf 0 white.width) (centreOf 0 white.height)) (1 : Nat) :=
    .of_test (by decide +kernel)
  refine ⟨by decide +kernel, isInside_iff.1 (by decide +kernel), ?_, white_isSolid,
    by decide +kernel⟩
  rw [whole.value, Nat.cast_one]
  exact lt_irrefl 1

end Texture.Polar
