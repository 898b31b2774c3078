/- Texture/Operator/Swatches
   digest: Plain colours and opacities, alone or laid over an input, and uploaded bitmaps. -/

import Texture.Operator.Settings
import Texture.Operator.Silhouette

set_option autoImplicit false
set_option relaxedAutoImplicit false

namespace Texture.Swatches

open Svg (Effects Style)

def swatch (r : Resolution) (s : ColorSettings) : Svg.Node :=
  Svg.Node.canvas r
    { Style.solid s.color with
      fillOpacity := if s.opacity < 1.0 then some s.opacity else none }

/-- A colour over the whole canvas or, with an input, multiplied with what the input paints. -/
def color (r : Resolution) (s : ColorSettings) (input : Option Artifact) : Work Artifact := do
  match input with
  | none => return .single (swatch r s)
  | some input =>
    let f := input.toFragment r
    let (definitions, mask) ← Silhouette.white.mask r f.definitions f.nodes
    let tint := Svg.Node.group { Effects.none with mask := some mask, blend := .multiply }
      [swatch r s]
    return .ofNodes [.group Effects.isolate (f.nodes ++ [tint])] definitions

def value (r : Resolution) (level : Float) : Artifact :=
  let shade := Number.Binary.wholePart (Number.clamp level 0.0 1.0 * 255.0)
  .single (Svg.Node.canvas r (Style.solid (Color.gray (UInt8.ofNat shade))))

/-- The input with an opacity; without one, the whole canvas in white. -/
def alpha (r : Resolution) (opacity : Float) : Option Artifact → Artifact
  | some input =>
    let f := input.toFragment r
    .ofNodes [.group { Effects.none with opacity := some opacity } f.nodes] f.definitions
  | none => .single (Svg.Node.canvas r { Style.white with fillOpacity := some opacity })

def image : Option String → Except Fault Artifact
  | some payload => return .raster (← Picture.ofPayload payload) .smooth
  | none => .ok .empty

theorem image_ok {payload : Option String} {a : Artifact} (made : image payload = .ok a) :
    a = .empty ∨ ∃ text p, Picture.ofPayload text = .ok p ∧ a = .raster p .smooth := by
  cases payload with
  | none => exact Or.inl (Except.ok.inj made).symm
  | some text =>
    cases read : Picture.ofPayload text with
    | error e => simp [image, read, bind, Except.bind] at made
    | ok p =>
      simp only [image, read, bind, Except.bind, pure, Except.pure, Except.ok.injEq] at made
      exact Or.inr ⟨text, p, read, made.symm⟩

end Texture.Swatches
