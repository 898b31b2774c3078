/- Texture/Operator/Restyle
   digest: New fills and strokes for all shapes of an input. -/

import Texture.Artifact
import Texture.Operator.Settings

set_option autoImplicit false
set_option relaxedAutoImplicit false

namespace Texture.Restyle

open Svg (Style)

/-- Changes the style of every shape. Pixels stay as they are, and nothing comes from nothing. -/
def apply (f : Style → Style) : Option Artifact → Artifact
  | some (.vector fragment) =>
    .vector { fragment with nodes := Svg.Node.restyleAll f fragment.nodes }
  | some (.raster p rendering) => .raster p rendering
  | none => .empty

/-- The style of a filled or outlined shape: without a fill it has a stroke, of width one unless
another is given. -/
def fillStyle (s : FillSettings) (style : Style) : Style :=
  { style with
    fill := if s.enabled then .color Color.white else .none
    stroke := if 0.0 < s.strokeWidth ∨ s.enabled = false then .color Color.white else .none
    strokeWidth := some (if 0.0 < s.strokeWidth then s.strokeWidth else 1.0) }

def strokeStyle (s : StrokeSettings) (style : Style) : Style :=
  { style with
    stroke := .color Color.white
    strokeWidth := some s.width
    strokeOpacity := some s.opacity }

def fill (s : FillSettings) : Option Artifact → Artifact := apply (fillStyle s)

def stroke (s : StrokeSettings) : Option Artifact → Artifact := apply (strokeStyle s)

end Texture.Restyle
