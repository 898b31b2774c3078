/- Texture/Operator/Polar
   digest: Pictures bent round: columns to rays and rows to circles, or back. -/

import Texture.Bake
import Texture.Number.Root
import Texture.Operator.Settings

set_option autoImplicit false
set_option relaxedAutoImplicit false

namespace Texture.Polar

/-- The place in the unit square from which a place takes its pixel. -/
def sourcePlace (s : PolarSettings) (x y : Float) : Plane.Point :=
  let dx := x - 0.5 - s.offsetX
  let dy := y - 0.5 - s.offsetY
  let radius := Number.Root.hypotenuse dx dy * 2.0 * s.radialScale
  let angle := Number.Binary.remainderOne
    ((Number.Angle.ofVector dy dx + Plane.quarterTurn) / Plane.fullTurn * s.angularScale)
  match s.mode with
  | .rectToPolar => ⟨angle, radius⟩
  | .polarToRect => ⟨radius, angle⟩

def isInside (u : Float) : Bool := 0.0 ≤ u && u < 1.0

def indexAt (u : Float) (edge : Nat) : Nat :=
  min (Number.Binary.wholePart (u * Number.Binary.ofNat false edge)) (edge - 1)

def centreOf (i edge : Nat) : Float :=
  (Number.Binary.ofNat false i + 0.5) / Number.Binary.ofNat false edge

def pixelFor (s : PolarSettings) (p : Picture) (x y : Nat) : Pixel :=
  let place := sourcePlace s (centreOf x p.width) (centreOf y p.height)
  if isInside place.x && isInside place.y then
    Buffer.pixelAt p.bytes (indexAt place.y p.height * p.width + indexAt place.x p.width)
  else Pixel.clear

def remap (s : PolarSettings) (p : Picture) : Picture :=
  Picture.ofPixels p.width p.height p.edges (pixelFor s p)

def apply (canvas : Canvas) (s : PolarSettings) : Option Artifact → Work Artifact
  | some input => do
    return .raster (remap s (← input.bake canvas canvas.resolution.pixels)) .smooth
  | none => return .empty

end Texture.Polar
