/- Texture/Operator/Place
   digest: Inputs shifted, turned and scaled. -/

import Texture.Artifact
import Texture.Operator.Settings

set_option autoImplicit false
set_option relaxedAutoImplicit false

namespace Texture.Place

open Plane (Affine)
open Svg (Effects)

def apply (r : Resolution) (m : Affine) : Option Artifact → Artifact
  | some input =>
    let f := input.toFragment r
    .ofNodes [.group { Effects.none with transform := some m } f.nodes] f.definitions
  | none => .empty

/-- Shifts by fractions of the canvas. -/
def translate (r : Resolution) (s : TranslateSettings) : Option Artifact → Artifact :=
  apply r (Affine.translate ⟨s.x * r.edge, s.y * r.edge⟩)

/-- Turns clockwise about the centre of the canvas. -/
def rotate (r : Resolution) (degrees : Float) : Option Artifact → Artifact :=
  apply r ((Affine.rotate (Plane.ofDegrees degrees)).about ⟨r.centre, r.centre⟩)

def scale (r : Resolution) (factor : Float) : Option Artifact → Artifact :=
  apply r ((Affine.scale factor).about ⟨r.centre, r.centre⟩)

end Texture.Place
