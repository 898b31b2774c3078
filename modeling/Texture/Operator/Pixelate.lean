/- Texture/Operator/Pixelate
   digest: Inputs painted in few large pixels. -/

import Texture.Bake

set_option autoImplicit false
set_option relaxedAutoImplicit false

namespace Texture.Pixelate

open Svg (Rendering)

/-- The edge of the small picture: as many pixels of the given size as cover the canvas. A size of
zero counts as one. -/
def edge (r : Resolution) (size : Nat) : Nat :=
  (r.pixels + (max size 1 - 1)) / max size 1

def rendering (size : Nat) : Rendering := if size ≤ 1 then .smooth else .pixelated

/-- The input in large pixels. Where it cannot be painted it stays as it is. -/
def apply (canvas : Canvas) (size : Nat) : Option Artifact → Work Artifact
  | some input =>
    tryCatch
      (do return .raster (← input.bake canvas (edge canvas.resolution size)) (rendering size))
      (fun _ => return input)
  | none => return .empty

end Texture.Pixelate
