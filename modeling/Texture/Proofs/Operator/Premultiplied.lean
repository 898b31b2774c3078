/- Texture/Proofs/Operator/Premultiplied
   digest: With a painter of valid pictures, every operator makes valid pictures of valid ones. -/

import Texture.Operator.Apply
import Texture.Proofs.Bake
import Texture.Proofs.Bake.Premultiplied

set_option autoImplicit false
set_option relaxedAutoImplicit false

namespace Texture

open Work (Upholds)

def Artifact.Valid : Artifact → Prop
  | .vector _ => True
  | .raster p _ => p.Valid

abbrev Work.Validates (x : Work Artifact) : Prop := x.Upholds (fun _ => True) Artifact.Valid

variable {canvas : Canvas} {r : Resolution}

private theorem Swatches.image_validates (payload : Option String) :
    (Work.ofExcept (Swatches.image payload)).Validates := by
  refine Upholds.of_silent (fun s => by rw [Work.after_ofExcept]) ?_
  intro s a t yields
  obtain ⟨made, -⟩ := (Work.yields_ofExcept _ _ _ _).mp yields
  obtain rfl | ⟨text, p, read, rfl⟩ := image_ok made
  · trivial
  · exact Picture.ofPayload_valid read

private theorem Silhouette.mask_silent (s : Silhouette) (ds : Svg.Definitions)
    (nodes : List Svg.Node) : (s.mask r ds nodes).Upholds (fun _ => True) fun _ => True :=
  (Upholds.freshId "mask").bind fun _ _ => Upholds.pure trivial

private theorem Swatches.color_validates (s : ColorSettings) (input : Option Artifact) :
    (Swatches.color r s input).Validates := by
  cases input with
  | none => exact Upholds.pure trivial
  | some a => exact (Silhouette.white.mask_silent _ _).bind fun _ _ => Upholds.pure trivial

private theorem Swatches.alpha_valid (opacity : Float) (input : Option Artifact) :
    (Swatches.alpha r opacity input).Valid := by
  cases input with
  | none => exact trivial
  | some a => exact trivial

private theorem Combination.apply_validates (c : Combination) (first second : Option Artifact) :
    (c.apply r first second).Validates := by
  refine Upholds.bind (Q := fun _ => True) ?_ fun _ _ => Upholds.pure trivial
  cases c with
  | union => exact Upholds.pure trivial
  | exclusion => exact Upholds.pure trivial
  | difference =>
    exact (Silhouette.black.mask_silent _ _).bind fun _ _ => Upholds.pure trivial
  | intersection =>
    refine (Silhouette.white.mask_silent _ _).bind fun _ _ => ?_
    exact (Silhouette.white.mask_silent _ _).bind fun _ _ => Upholds.pure trivial

private theorem Restyle.apply_valid (f : Svg.Style → Svg.Style) {input : Option Artifact}
    (h : ∀ a ∈ input, a.Valid) : (Restyle.apply f input).Valid := by
  rcases input with _ | ⟨fragment⟩ | ⟨p, rendering⟩
  · exact trivial
  · exact trivial
  · exact h _ rfl

private theorem Place.apply_valid (m : Plane.Affine) (input : Option Artifact) :
    (Place.apply r m input).Valid := by
  cases input with
  | none => exact trivial
  | some a => exact trivial

private theorem Soften.glow_validates (s : GlowSettings) (input : Option Artifact) :
    (Soften.glow r s input).Validates := by
  cases input with
  | none => exact Upholds.pure trivial
  | some a => exact (Upholds.freshId _).bind fun _ _ => Upholds.pure trivial

private theorem Soften.blur_validates (radius : Float) (input : Option Artifact) :
    (Soften.blur r radius input).Validates := by
  cases input with
  | none => exact Upholds.pure trivial
  | some a => exact (Upholds.freshId _).bind fun _ _ => Upholds.pure trivial

private theorem Soften.fade_validates (s : FadeSettings) (input : Option Artifact) :
    (Soften.fade r s input).Validates := by
  cases input with
  | none => exact Upholds.pure trivial
  | some a =>
    refine (Upholds.freshId "fade_grad").bind fun _ _ => ?_
    exact (Upholds.freshId "fade_mask").bind fun _ _ => Upholds.pure trivial

theorem Artifact.bake_valid (painter : canvas.rasterizer.IsValid) (size : Nat) {a : Artifact}
    (h : a.Valid) : (a.bake canvas size).Upholds (fun _ => True) Picture.Valid := by
  rcases a.bake_cases canvas size with ⟨p, rendering, rfl, -, taken⟩ | painted
  · rw [taken]
    exact Upholds.pure h
  · rw [painted]
    exact (Bake.document_valid painter size size _).mono (fun _ _ => trivial) fun _ valid => valid

private theorem Pixelate.apply_validates (painter : canvas.rasterizer.IsValid) (size : Nat)
    {input : Option Artifact} (h : ∀ a ∈ input, a.Valid) :
    (Pixelate.apply canvas size input).Validates := by
  cases input with
  | none => exact Upholds.pure trivial
  | some a =>
    refine Upholds.tryCatch ?_ fun _ => Upholds.pure (h a rfl)
    exact (Artifact.bake_valid painter _ (h a rfl)).bind fun p valid => Upholds.pure valid

private theorem Polar.apply_validates (painter : canvas.rasterizer.IsValid) (s : PolarSettings)
    {input : Option Artifact} (h : ∀ a ∈ input, a.Valid) :
    (Polar.apply canvas s input).Validates := by
  cases input with
  | none => exact Upholds.pure trivial
  | some a =>
    refine (Artifact.bake_valid painter _ (h a rfl)).bind fun p valid => Upholds.pure ?_
    exact remap_valid s valid

/-- Every operator makes valid artifacts. The second and the third input only ever go into
fragments. -/
theorem Settings.apply_validates (painter : canvas.rasterizer.IsValid) (settings : Settings)
    {inputs : Inputs} (h : ∀ a ∈ inputs.only, a.Valid) :
    (settings.apply canvas inputs).Validates := by
  cases settings with
  | beam s => exact (Upholds.freshId _).bind fun _ _ => Upholds.pure trivial
  | gradient g => exact (Upholds.freshId _).bind fun _ _ => Upholds.pure trivial
  | color s => exact Swatches.color_validates s _
  | alpha opacity => exact Upholds.pure (Swatches.alpha_valid opacity _)
  | image payload => exact Swatches.image_validates payload
  | math c => exact c.apply_validates _ _
  | fill s => exact Upholds.pure (Restyle.apply_valid _ h)
  | glow s => exact Soften.glow_validates s _
  | softBlur radius => exact Soften.blur_validates radius _
  | stroke s => exact Upholds.pure (Restyle.apply_valid _ h)
  | gradientFade s => exact Soften.fade_validates s _
  | pixelate size => exact Pixelate.apply_validates painter size h
  | translate s => exact Upholds.pure (Place.apply_valid _ _)
  | rotate degrees => exact Upholds.pure (Place.apply_valid _ _)
  | scale factor => exact Upholds.pure (Place.apply_valid _ _)
  | polar s => exact Polar.apply_validates painter s h
  | output =>
    refine Upholds.pure ?_
    cases given : inputs.only with
    | none => exact trivial
    | some a => exact h a given
  | _ => exact Upholds.pure trivial

end Texture
