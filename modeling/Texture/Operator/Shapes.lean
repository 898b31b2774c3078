/- Texture/Operator/Shapes
   digest: Operators without inputs: white shapes in the middle of the canvas, and gradients. -/

import Texture.Artifact
import Texture.Number.Power
import Texture.Number.Root
import Texture.Operator.Settings
import Texture.Plane.Outline
import Texture.Session

set_option autoImplicit false
set_option relaxedAutoImplicit false

namespace Texture.Shapes

open Plane (Affine Path)
open Svg (Definitions LinearGradient Paint Stop Style)

def centred (r : Resolution) (path : Path) (style : Style) : Svg.Node :=
  .shape (.path (path.transform (Affine.translate ⟨r.centre, r.centre⟩))) style

def plain (r : Resolution) (path : Path) : Artifact := .single (centred r path Style.white)

def rectangle (r : Resolution) (s : RectangleSettings) : Artifact :=
  plain r (Plane.Outline.roundedBox s.width s.height
    ⟨s.topLeft, s.topRight, s.bottomRight, s.bottomLeft⟩)

def circle (r : Resolution) (s : CircleSettings) : Artifact :=
  plain r (Plane.Outline.ellipse (s.width / 2.0) (s.height / 2.0))

def polygon (r : Resolution) (s : PolygonSettings) : Artifact :=
  plain r (Plane.Outline.star s.points s.outer s.inner)

def wavyRing (r : Resolution) (s : WavyRingSettings) : Artifact :=
  plain r (Plane.Outline.wavyRing s.radius s.frequency s.amplitude)

def gradientFilled (gradient : LinearGradient) (node : Style → Svg.Node) : Artifact :=
  .ofNodes [node (Style.filled (.reference gradient.id))]
    (Definitions.empty.insert (.gradient gradient))

/-- White stops of falling opacity from the top of a beam to its bottom. -/
def beamStops : List Stop :=
  [⟨0.0, Color.white, 1.0⟩, ⟨0.6, Color.white, 0.05⟩, ⟨1.0, Color.white, 0.0⟩]

def beam (r : Resolution) (s : BeamSettings) : Work Artifact := do
  let id ← Work.freshId "beam"
  return gradientFilled ⟨id, .boundingBox, 0.0, 0.0, 0.0, 1.0, none, beamStops⟩
    (centred r (Plane.Outline.beam s.length s.topWidth s.bottomWidth))

/-- The direction of a vector; vectors that are too short or too long for one point right. -/
def direction (x y : Float) : Plane.Point :=
  let length := Number.Root.hypotenuse x y
  if 1e-9 < length ∧ Number.Binary.isFinite length then ⟨x / length, y / length⟩ else ⟨1.0, 0.0⟩

def drawStop (power : Float) (s : GradientStop) : Stop :=
  ⟨Number.Power.power s.offset.clampUnit.toFloat power, s.color, s.opacity⟩

/-- A gradient over the whole canvas, along a line through its centre. -/
def gradient (r : Resolution) (g : Gradient) : Work Artifact := do
  let id ← Work.freshId "gradient"
  let u := direction g.directionX g.directionY
  let power := if 0.0 < g.power then g.power else 1.0
  return gradientFilled
    ⟨id, .boundingBox, 0.5 - u.x / 2.0, 0.5 - u.y / 2.0, 0.5 + u.x / 2.0, 0.5 + u.y / 2.0, none,
      g.stops.map (drawStop power)⟩
    (Svg.Node.canvas r)

end Texture.Shapes
