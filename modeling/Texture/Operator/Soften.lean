/- Texture/Operator/Soften
   digest: Halos, blurs and fading: an input put into a group with a filter or a mask. -/

import Texture.Artifact
import Texture.Operator.Settings
import Texture.Session

set_option autoImplicit false
set_option relaxedAutoImplicit false

namespace Texture.Soften

open Plane (Affine)
open Svg (Effects Primitive Region Style)

def source : String := "SourceGraphic"

def filtered (r : Resolution) (stem : String) (region : Region) (primitives : List Primitive)
    (input : Artifact) : Work Artifact := do
  let f := input.toFragment r
  let id ← Work.freshId stem
  return .ofNodes [.group { Effects.none with filter := some id } f.nodes]
    (f.definitions.insert (.filter id region primitives))

/-- Multiplies the opacity and keeps the colours. -/
def amplify (k : Float) : List Float :=
  [1.0, 0.0, 0.0, 0.0, 0.0,
    0.0, 1.0, 0.0, 0.0, 0.0,
    0.0, 0.0, 1.0, 0.0, 0.0,
    0.0, 0.0, 0.0, k, 0.0]

/-- Two blurs, amplified, under what they are made of. -/
def haloPrimitives (s : GlowSettings) : List Primitive := [
  .blur source s.wide "blur1",
  .blur source s.tight "blur2",
  .merge ["blur1", "blur2"] "blurs",
  .matrix "blurs" (amplify s.intensity) "halo",
  .merge ["halo", source] "glow"]

def haloStem : Halo → String
  | .glow => "glow"
  | .neon => "neon"

def glow (r : Resolution) (s : GlowSettings) : Option Artifact → Work Artifact
  | some input =>
    filtered r (haloStem s.halo) (Region.bounding (-2.0) (-2.0) 5.0 5.0) (haloPrimitives s) input
  | none => return .empty

def blur (r : Resolution) (radius : Float) : Option Artifact → Work Artifact
  | some input =>
    filtered r "blur" (Region.bounding (-0.5) (-0.5) 2.0 2.0) [.blur source radius "blur"] input
  | none => return .empty

/-- The ramp of a fade: white from one opacity to another, across the canvas, turned about its
centre. -/
def ramp (r : Resolution) (s : FadeSettings) (id : String) : Svg.LinearGradient :=
  let middle := r.edge / 2.0
  let turn := Affine.rotate (Plane.ofDegrees (s.direction - 90.0))
  ⟨id, .userSpace, 0.0, middle, r.edge, middle, some (turn.about ⟨r.centre, r.centre⟩),
    [⟨0.0, Color.white, s.start⟩, ⟨1.0, Color.white, s.stop⟩]⟩

def fade (r : Resolution) (s : FadeSettings) : Option Artifact → Work Artifact
  | some input => do
    let f := input.toFragment r
    let rampId ← Work.freshId "fade_grad"
    let maskId ← Work.freshId "fade_mask"
    let region := Region.roomy r
    let definitions := (f.definitions.insert (.gradient (ramp r s rampId))).insert
      (.mask maskId region [.shape (.box region.box) (Style.filled (.reference rampId))])
    return .ofNodes [.group { Effects.none with mask := some maskId } f.nodes] definitions
  | none => return .empty

end Texture.Soften
