/- Texture/Proofs/Operator/Rename
   digest: Operators that paint nothing do the same to inputs under other ids, and fail for no other
   reason than an unreadable bitmap. -/

import Texture.Operator.Apply
import Texture.Proofs.Svg.Rename
import Texture.Proofs.Work

set_option autoImplicit false
set_option relaxedAutoImplicit false

namespace Texture

open Svg (Def Definitions Effects Region Style)

section

variable (ρ : String → String)

def Fragment.rename (f : Fragment) : Fragment :=
  ⟨Svg.Node.renameAll ρ f.nodes, f.definitions.rename ρ⟩

/-- Gives new ids to the definitions of an artifact and to all that refers to them. -/
def Artifact.rename : Artifact → Artifact
  | .vector f => .vector (f.rename ρ)
  | .raster p rendering => .raster p rendering

def Inputs.rename (inputs : Inputs) : Inputs :=
  ⟨inputs.only.map (Artifact.rename ρ), inputs.first.map (Artifact.rename ρ),
    inputs.second.map (Artifact.rename ρ)⟩

/-- New ids that leave the silhouette filters alone. -/
def FixesSilhouettes : Prop := ∀ s : Silhouette, ρ s.filterId = s.filterId

/-- New ids that turn what is given out after one session into what is given out after another. -/
def Tracks (u s : Session) : Prop :=
  ∀ stem i, ρ (mintedId stem (u.minted + (i + 1))) = mintedId stem (s.minted + (i + 1))

end

namespace Work

variable {α β α' β' : Type} {ρ : String → String}

/-- Work that does the same under new ids: its values correspond, it gives out as many ids, and it
fails alike. -/
def Mirrors (ρ : String → String) (f : α → β) (x : Work α) (y : Work β) : Prop :=
  ∀ u s, Tracks ρ u s →
    match x.after u, y.after s with
    | (.ok a, u'), (.ok b, s') =>
      b = f a ∧ ∃ k, u'.minted = u.minted + k ∧ s'.minted = s.minted + k
    | (.error e, _), (.error e', _) => e' = e
    | _, _ => False

namespace Mirrors

theorem pure {f : α → β} {a : α} {b : β} (h : b = f a) :
    Mirrors ρ f (Pure.pure a) (Pure.pure b) := by
  intro u s _
  simp only [after_pure]
  exact ⟨h, 0, rfl, rfl⟩

theorem bind {f : α → β} {f' : α' → β'} {x : Work α} {y : Work β} {k : α → Work α'}
    {k' : β → Work β'} (first : Mirrors ρ f x y) (rest : ∀ a, Mirrors ρ f' (k a) (k' (f a))) :
    Mirrors ρ f' (x >>= k) (y >>= k') := by
  intro u s tracks
  have outcome := first u s tracks
  rw [after_bind, after_bind]
  rcases hx : x.after u with ⟨e | a, u'⟩ <;> rcases hy : y.after s with ⟨e' | b, s'⟩ <;>
    rw [hx, hy] at outcome
  · exact outcome
  · exact outcome.elim
  · exact outcome.elim
  · obtain ⟨rfl, n, hu, hs⟩ := outcome
    have tracks' : Tracks ρ u' s' := by
      intro stem i
      have later := tracks stem (n + i)
      rw [hu, hs, Nat.add_assoc, Nat.add_assoc]
      exact later
    have outcome' := rest a u' s' tracks'
    simp only
    rcases hx' : (k a).after u' with ⟨e | c, u''⟩ <;>
      rcases hy' : (k' (f a)).after s' with ⟨e' | d, s''⟩ <;> rw [hx', hy'] at outcome'
    · exact outcome'
    · exact outcome'.elim
    · exact outcome'.elim
    · obtain ⟨same, m, hu', hs'⟩ := outcome'
      exact ⟨same, n + m, by omega, by omega⟩

theorem freshId (stem : String) : Mirrors ρ ρ (Work.freshId stem) (Work.freshId stem) := by
  intro u s tracks
  simp only [after_freshId]
  exact ⟨(tracks stem 0).symm, 1, rfl, rfl⟩

theorem ofExcept (f : α → β) (x : Except Fault α) :
    Mirrors ρ f (Work.ofExcept x) (Work.ofExcept (x.map f)) := by
  intro u s _
  rw [after_ofExcept, after_ofExcept]
  cases x with
  | error e => rfl
  | ok a => exact ⟨rfl, 0, rfl, rfl⟩

end Mirrors

end Work

open Work (Mirrors)

section

variable {ρ : String → String} {r : Resolution}

theorem Artifact.rename_ofNodes (nodes : List Svg.Node) (ds : Definitions) :
    (ofNodes nodes ds).rename ρ = ofNodes (Svg.Node.renameAll ρ nodes) (ds.rename ρ) := rfl

private theorem Artifact.rename_toFragment (a : Artifact) :
    (a.rename ρ).toFragment r = (a.toFragment r).rename ρ := by
  cases a with
  | vector f => rfl
  | raster p rendering => rfl

theorem Artifact.rename_empty : Artifact.empty.rename ρ = .empty := rfl

private theorem Artifact.rename_getD (a : Option Artifact) :
    (a.map (Artifact.rename ρ)).getD .empty = (a.getD .empty).rename ρ := by
  cases a <;> rfl

theorem Silhouette.rename_filter (fixes : FixesSilhouettes ρ) (s : Silhouette) :
    (s.filter r).rename ρ = s.filter r := by
  rw [filter, Def.rename, fixes s]

private theorem Silhouette.rename_content (fixes : FixesSilhouettes ρ) (s : Silhouette)
    (nodes : List Svg.Node) :
    Svg.Node.renameAll ρ (s.content r nodes) = s.content r (Svg.Node.renameAll ρ nodes) := by
  cases s <;> simp [content, Svg.Node.renameAll, Svg.Node.rename, Effects.rename, Effects.none,
    fixes _, Style.rename, Style.white, Style.solid, Style.filled, Svg.Paint.rename]

private theorem Silhouette.mask_mirrors (fixes : FixesSilhouettes ρ) (s : Silhouette)
    (ds : Definitions) (nodes : List Svg.Node) :
    Mirrors ρ (fun p => (p.1.rename ρ, ρ p.2)) (s.mask r ds nodes)
      (s.mask r (ds.rename ρ) (Svg.Node.renameAll ρ nodes)) := by
  refine (Mirrors.freshId "mask").bind fun id => Mirrors.pure ?_
  simp only [Definitions.rename_insert, rename_filter fixes, Def.rename_mask, rename_content fixes]

private theorem Shapes.gradientFilled_mirrors (stem : String)
    (gradient : String → Svg.LinearGradient)
    (named : ∀ id, { gradient id with id := ρ (gradient id).id } = gradient (ρ id))
    (node : Style → Svg.Node) (painted : ∀ style, (node style).rename ρ = node (style.rename ρ)) :
    Mirrors ρ (Artifact.rename ρ)
      (do
        let id ← Work.freshId stem
        return Shapes.gradientFilled (gradient id) node)
      (do
        let id ← Work.freshId stem
        return Shapes.gradientFilled (gradient id) node) := by
  refine (Mirrors.freshId stem).bind fun id => Mirrors.pure ?_
  have id_eq : (gradient (ρ id)).id = ρ (gradient id).id := by
    rw [← named id]
  simp only [gradientFilled, Artifact.ofNodes, Artifact.rename, Fragment.rename,
    Definitions.rename_insert, Definitions.rename_empty, Def.rename, named, Svg.Node.renameAll,
    painted, Style.rename, Style.filled, Svg.Paint.rename, id_eq]

private theorem Swatches.rename_swatch (s : ColorSettings) :
    (swatch r s).rename ρ = swatch r s := rfl

private theorem Swatches.color_mirrors (fixes : FixesSilhouettes ρ) (s : ColorSettings)
    (input : Option Artifact) :
    Mirrors ρ (Artifact.rename ρ) (Swatches.color r s input)
      (Swatches.color r s (input.map (Artifact.rename ρ))) := by
  cases input with
  | none => exact Mirrors.pure rfl
  | some a =>
    simp only [color, Option.map_some, Artifact.rename_toFragment, Fragment.rename]
    refine (Silhouette.mask_mirrors fixes .white _ _).bind ?_
    rintro ⟨definitions, mask⟩
    refine Mirrors.pure ?_
    simp [Artifact.rename_ofNodes, Svg.Node.renameAll, Svg.Node.rename, Effects.rename,
      Effects.isolate, Effects.none, rename_swatch]

private theorem Swatches.rename_alpha (opacity : Float) (input : Option Artifact) :
    alpha r opacity (input.map (Artifact.rename ρ)) = (alpha r opacity input).rename ρ := by
  cases input with
  | none => rfl
  | some a =>
    simp [alpha, Artifact.rename_toFragment, Fragment.rename, Artifact.rename_ofNodes,
      Svg.Node.renameAll, Svg.Node.rename, Effects.rename, Effects.none]

private theorem Swatches.rename_image (payload : Option String) :
    (image payload).map (Artifact.rename ρ) = image payload := by
  cases payload with
  | none => rfl
  | some text =>
    simp only [image]
    cases Picture.ofPayload text <;> rfl

private theorem Restyle.rename_apply {f : Style → Style}
    (h : ∀ style, f (style.rename ρ) = (f style).rename ρ) (input : Option Artifact) :
    apply f (input.map (Artifact.rename ρ)) = (apply f input).rename ρ := by
  rcases input with _ | ⟨fragment⟩ | _
  · rfl
  · simp [apply, Artifact.rename, Fragment.rename, Svg.Node.rename_restyleAll h]
  · rfl

private theorem Restyle.rename_fillStyle (s : FillSettings) (style : Style) :
    fillStyle s (style.rename ρ) = (fillStyle s style).rename ρ := by
  simp only [fillStyle, Style.rename]
  split <;> split <;> rfl

private theorem Restyle.rename_strokeStyle (s : StrokeSettings) (style : Style) :
    strokeStyle s (style.rename ρ) = (strokeStyle s style).rename ρ := rfl

private theorem Place.rename_apply (m : Plane.Affine) (input : Option Artifact) :
    apply r m (input.map (Artifact.rename ρ)) = (apply r m input).rename ρ := by
  cases input with
  | none => rfl
  | some a =>
    simp [apply, Artifact.rename_toFragment, Fragment.rename, Artifact.rename_ofNodes,
      Svg.Node.renameAll, Svg.Node.rename, Effects.rename, Effects.none]

private theorem Soften.filtered_mirrors (stem : String) (region : Region)
    (primitives : List Svg.Primitive) (a : Artifact) :
    Mirrors ρ (Artifact.rename ρ) (filtered r stem region primitives a)
      (filtered r stem region primitives (a.rename ρ)) := by
  refine (Mirrors.freshId stem).bind fun id => Mirrors.pure ?_
  simp [Artifact.rename_toFragment, Fragment.rename, Artifact.rename_ofNodes, Svg.Node.renameAll,
    Svg.Node.rename, Effects.rename, Effects.none, Definitions.rename_insert, Def.rename_filter]

private theorem Soften.glow_mirrors (s : GlowSettings) (input : Option Artifact) :
    Mirrors ρ (Artifact.rename ρ) (glow r s input) (glow r s (input.map (Artifact.rename ρ))) := by
  cases input with
  | none => exact Mirrors.pure rfl
  | some a => exact filtered_mirrors _ _ _ a

private theorem Soften.blur_mirrors (radius : Float) (input : Option Artifact) :
    Mirrors ρ (Artifact.rename ρ) (blur r radius input)
      (blur r radius (input.map (Artifact.rename ρ))) := by
  cases input with
  | none => exact Mirrors.pure rfl
  | some a => exact filtered_mirrors _ _ _ a

private theorem Soften.fade_mirrors (s : FadeSettings) (input : Option Artifact) :
    Mirrors ρ (Artifact.rename ρ) (fade r s input) (fade r s (input.map (Artifact.rename ρ))) := by
  cases input with
  | none => exact Mirrors.pure rfl
  | some a =>
    refine (Mirrors.freshId "fade_grad").bind fun rampId => ?_
    refine (Mirrors.freshId "fade_mask").bind fun maskId => Mirrors.pure ?_
    simp [Artifact.rename_toFragment, Fragment.rename, Artifact.rename_ofNodes, Svg.Node.renameAll,
      Svg.Node.rename, Effects.rename, Effects.none, Definitions.rename_insert, Def.rename_mask,
      Def.rename_gradient, ramp, Style.rename, Style.filled, Svg.Paint.rename]

private theorem Combination.children_mirrors (fixes : FixesSilhouettes ρ) (c : Combination)
    (ds : Definitions) (first second : List Svg.Node) :
    Mirrors ρ (fun p => (Svg.Node.renameAll ρ p.1, p.2.rename ρ)) (c.children r ds first second)
      (c.children r (ds.rename ρ) (Svg.Node.renameAll ρ first) (Svg.Node.renameAll ρ second)) := by
  cases c with
  | union =>
    refine Mirrors.pure ?_
    simp [blended, Svg.Node.renameAll, Svg.Node.rename, Effects.rename, Effects.none]
  | exclusion =>
    refine Mirrors.pure ?_
    simp [blended, Svg.Node.renameAll, Svg.Node.rename, Effects.rename, Effects.none]
  | difference =>
    refine (Silhouette.mask_mirrors fixes .black ds second).bind ?_
    rintro ⟨definitions, hidden⟩
    refine Mirrors.pure ?_
    simp [masked, Svg.Node.renameAll, Svg.Node.rename, Effects.rename, Effects.none]
  | intersection =>
    refine (Silhouette.mask_mirrors fixes .white ds second).bind ?_
    rintro ⟨definitions, inSecond⟩
    refine (Silhouette.mask_mirrors fixes .white definitions first).bind ?_
    rintro ⟨definitions', inFirst⟩
    refine Mirrors.pure ?_
    simp [masked, Svg.Node.renameAll, Svg.Node.rename, Effects.rename, Effects.none]

private theorem Combination.apply_mirrors (fixes : FixesSilhouettes ρ) (c : Combination)
    (first second : Option Artifact) :
    Mirrors ρ (Artifact.rename ρ) (c.apply r first second)
      (c.apply r (first.map (Artifact.rename ρ)) (second.map (Artifact.rename ρ))) := by
  simp only [apply, Artifact.rename_getD, Artifact.rename_toFragment, Fragment.rename,
    ← Definitions.rename_merge]
  refine (c.children_mirrors fixes _ _ _).bind ?_
  rintro ⟨nodes, definitions⟩
  refine Mirrors.pure ?_
  simp [Artifact.rename_ofNodes, Svg.Node.renameAll, Svg.Node.rename, Effects.rename,
    Effects.isolate, Effects.none]

def Settings.bakes : Settings → Bool
  | pixelate _ | polar _ => true
  | _ => false

/-- Operators that paint nothing do the same under other ids. -/
theorem Settings.apply_mirrors (fixes : FixesSilhouettes ρ) (settings : Settings) (canvas : Canvas)
    (paintless : settings.bakes = false) (inputs : Inputs) :
    Mirrors ρ (Artifact.rename ρ) (settings.apply canvas inputs)
      (settings.apply canvas (inputs.rename ρ)) := by
  cases settings with
  | rectangle s => exact Mirrors.pure rfl
  | circle s => exact Mirrors.pure rfl
  | polygon s => exact Mirrors.pure rfl
  | wavyRing s => exact Mirrors.pure rfl
  | beam s => exact Shapes.gradientFilled_mirrors "beam" _ (fun _ => rfl) _ (fun _ => rfl)
  | gradient g => exact Shapes.gradientFilled_mirrors "gradient" _ (fun _ => rfl) _ (fun _ => rfl)
  | color s => exact Swatches.color_mirrors fixes s inputs.only
  | value level => exact Mirrors.pure rfl
  | alpha opacity => exact Mirrors.pure (Swatches.rename_alpha opacity inputs.only)
  | image payload =>
    have same := Mirrors.ofExcept (ρ := ρ) (Artifact.rename ρ) (Swatches.image payload)
    rwa [Swatches.rename_image] at same
  | math c => exact c.apply_mirrors fixes inputs.first inputs.second
  | fill s => exact Mirrors.pure (Restyle.rename_apply (Restyle.rename_fillStyle s) inputs.only)
  | glow s => exact Soften.glow_mirrors s inputs.only
  | softBlur radius => exact Soften.blur_mirrors radius inputs.only
  | stroke s => exact Mirrors.pure (Restyle.rename_apply (Restyle.rename_strokeStyle s) inputs.only)
  | gradientFade s => exact Soften.fade_mirrors s inputs.only
  | pixelate size => simp [bakes] at paintless
  | translate s => exact Mirrors.pure (Place.rename_apply _ inputs.only)
  | rotate degrees => exact Mirrors.pure (Place.rename_apply _ inputs.only)
  | scale factor => exact Mirrors.pure (Place.rename_apply _ inputs.only)
  | polar s => simp [bakes] at paintless
  | output =>
    refine Mirrors.pure ?_
    rcases inputs with ⟨_ | a, _, _⟩ <;> rfl
  | unknown => exact Mirrors.pure rfl

end

namespace Work

variable {α β : Type}

/-- Work that cannot fail or, with a fault, can only fail with it. -/
def Decided (x : Work α) : Option Fault → Prop
  | none => ∀ s, ∃ a t, x.Yields s a t
  | some e => ∀ s, ∃ t, x.after s = (.error e, t)

def Succeeds (x : Work α) : Prop := x.Decided none

namespace Decided

theorem bind {x : Work α} {k : α → Work β} {fault fault' : Option Fault} (first : x.Decided fault)
    (rest : ∀ a, (k a).Decided fault') : (x >>= k).Decided (fault.or fault') := by
  cases fault with
  | some e =>
    intro s
    obtain ⟨t, failed⟩ := first s
    exact ⟨t, by rw [after_bind, failed]⟩
  | none =>
    rw [Option.none_or]
    cases fault' with
    | some e =>
      intro s
      obtain ⟨a, t, yields⟩ := first s
      obtain ⟨u, failed⟩ := rest a t
      refine ⟨u, ?_⟩
      rw [Yields] at yields
      simp only [after_bind, yields, failed]
    | none =>
      intro s
      obtain ⟨a, t, yields⟩ := first s
      obtain ⟨b, u, yields'⟩ := rest a t
      exact ⟨b, u, (yields_bind x k b s u).mpr ⟨a, t, yields, yields'⟩⟩

end Decided

namespace Succeeds

theorem pure (a : α) : (Pure.pure a : Work α).Succeeds := fun s => ⟨a, s, rfl⟩

theorem freshId (stem : String) : (Work.freshId stem).Succeeds := fun _ => ⟨_, _, rfl⟩

theorem bind {x : Work α} {f : α → Work β} (hx : x.Succeeds) (hf : ∀ a, (f a).Succeeds) :
    (x >>= f).Succeeds :=
  Decided.bind hx hf

end Succeeds

end Work

open Work (Succeeds)

section

variable {r : Resolution}

private theorem Silhouette.mask_succeeds (s : Silhouette) (ds : Definitions)
    (nodes : List Svg.Node) : (s.mask r ds nodes).Succeeds :=
  (Succeeds.freshId "mask").bind fun _ => Succeeds.pure _

private theorem Swatches.color_succeeds (s : ColorSettings) (input : Option Artifact) :
    (Swatches.color r s input).Succeeds := by
  cases input with
  | none => exact Succeeds.pure _
  | some a => exact (Silhouette.mask_succeeds _ _ _).bind fun _ => Succeeds.pure _

private theorem Soften.filtered_succeeds (stem : String) (region : Region)
    (primitives : List Svg.Primitive) (a : Artifact) :
    (filtered r stem region primitives a).Succeeds :=
  (Succeeds.freshId stem).bind fun _ => Succeeds.pure _

private theorem Soften.glow_succeeds (s : GlowSettings) (input : Option Artifact) :
    (glow r s input).Succeeds := by
  cases input with
  | none => exact Succeeds.pure _
  | some a => exact filtered_succeeds _ _ _ a

private theorem Soften.blur_succeeds (radius : Float) (input : Option Artifact) :
    (blur r radius input).Succeeds := by
  cases input with
  | none => exact Succeeds.pure _
  | some a => exact filtered_succeeds _ _ _ a

private theorem Soften.fade_succeeds (s : FadeSettings) (input : Option Artifact) :
    (fade r s input).Succeeds := by
  cases input with
  | none => exact Succeeds.pure _
  | some a =>
    exact (Succeeds.freshId _).bind fun _ => (Succeeds.freshId _).bind fun _ => Succeeds.pure _

private theorem Combination.apply_succeeds (c : Combination) (first second : Option Artifact) :
    (c.apply r first second).Succeeds := by
  refine Succeeds.bind ?_ fun _ => Succeeds.pure _
  cases c with
  | union => exact Succeeds.pure _
  | exclusion => exact Succeeds.pure _
  | difference => exact (Silhouette.mask_succeeds _ _ _).bind fun _ => Succeeds.pure _
  | intersection =>
    exact (Silhouette.mask_succeeds _ _ _).bind fun _ =>
      (Silhouette.mask_succeeds _ _ _).bind fun _ => Succeeds.pure _

/-- What is wrong with the parameters of an operator. Only a bitmap can be unreadable. -/
def Settings.fault? : Settings → Option Fault
  | image payload =>
    match Swatches.image payload with
    | .error e => some e
    | .ok _ => none
  | _ => none

/-- An operator that paints nothing fails for what is wrong with its parameters only. -/
theorem Settings.apply_decided {settings : Settings} (paintless : settings.bakes = false)
    (canvas : Canvas) (inputs : Inputs) :
    (settings.apply canvas inputs).Decided settings.fault? := by
  cases settings with
  | beam s => exact (Succeeds.freshId _).bind fun _ => Succeeds.pure _
  | gradient g => exact (Succeeds.freshId _).bind fun _ => Succeeds.pure _
  | color s => exact Swatches.color_succeeds s _
  | image payload =>
    simp only [fault?]
    cases made : Swatches.image payload with
    | error e =>
      intro s
      exact ⟨s, by rw [apply, Work.after_ofExcept, made]⟩
    | ok a =>
      intro s
      exact ⟨a, s, (Work.yields_ofExcept _ _ _ _).mpr ⟨made, rfl⟩⟩
  | math c => exact c.apply_succeeds _ _
  | glow s => exact Soften.glow_succeeds s _
  | softBlur radius => exact Soften.blur_succeeds radius _
  | gradientFade s => exact Soften.fade_succeeds s _
  | pixelate size => simp [bakes] at paintless
  | polar s => simp [bakes] at paintless
  | _ => exact Succeeds.pure _

end

end Texture
