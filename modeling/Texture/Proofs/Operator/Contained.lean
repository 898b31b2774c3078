/- Texture/Proofs/Operator/Contained
   digest: What every operator makes of contained blends: contained blends again, and wishes for
   pixels in which a group is added at most to nothing. -/

import Texture.Operator.Apply
import Texture.Proofs.Bake
import Texture.Proofs.Bake.Contained
import Texture.Proofs.Svg.Scope

set_option autoImplicit false
set_option relaxedAutoImplicit false

namespace Texture

open Svg (Def Definitions Effects Style)
open Svg.Node (Contained EveryGroupAll Holds)
open Work (Upholds)

def Request.IsSound (q : Request) : Prop := q.IsLayer ∨ q.IsFinal

def Svg.Definitions.Contained (ds : Definitions) : Prop :=
  ∀ d ∈ ds.items, Svg.Node.Contained d.content

structure Fragment.Contained (f : Fragment) : Prop where
  nodes : Svg.Node.Contained f.nodes
  definitions : f.definitions.Contained

def Artifact.Contained : Artifact → Prop
  | .vector f => f.Contained
  | .raster _ _ => True

structure Inputs.Contained (inputs : Inputs) : Prop where
  only : ∀ a ∈ inputs.only, a.Contained
  first : ∀ a ∈ inputs.first, a.Contained
  second : ∀ a ∈ inputs.second, a.Contained

namespace Svg.Definitions.Contained

variable {ds es : Definitions} {d : Def}

theorem empty : Definitions.empty.Contained := by
  intro d mem
  simp [Definitions.empty] at mem

theorem insert (h : ds.Contained) (hd : Node.Contained d.content) :
    (ds.insert d).Contained :=
  Definitions.forall_insert h hd

private theorem merge (h : ds.Contained) (h' : es.Contained) : (ds.merge es).Contained :=
  Definitions.forall_merge h h'

end Svg.Definitions.Contained

section

variable {a : Artifact} {r : Resolution}

theorem Artifact.Contained.empty : Artifact.empty.Contained :=
  ⟨Svg.Node.Contained.nil, Definitions.Contained.empty⟩

private theorem Artifact.Contained.single {n : Svg.Node} (h : Svg.Node.Contained [n]) :
    (Artifact.single n).Contained := ⟨h, Definitions.Contained.empty⟩

private theorem Artifact.Contained.toFragment (h : a.Contained) : (a.toFragment r).Contained := by
  cases a with
  | vector f => exact h
  | raster p rendering => exact ⟨Svg.Node.Contained.image _ _ _, Definitions.Contained.empty⟩

private theorem Artifact.Contained.getD {a : Option Artifact} (h : ∀ b ∈ a, b.Contained) :
    (a.getD .empty).Contained := by
  cases a with
  | none => exact Artifact.Contained.empty
  | some b => exact h b rfl

theorem Artifact.Contained.toDocument (h : a.Contained) (background : Option Color) :
    (a.toDocument r background).Contained :=
  ⟨(h.toFragment (r := r)).nodes, (h.toFragment (r := r)).definitions⟩

end

namespace Svg.Node

mutual

private theorem restyle_everyGroup (f : Style → Style) {n : Node} (h : n.EveryGroup Holds) :
    (restyle f n).EveryGroup Holds ∧ (restyle f n).blend = n.blend := by
  cases n with
  | shape geometry style => exact ⟨trivial, rfl⟩
  | group effects children =>
    obtain ⟨below, blends⟩ := restyleAll_everyGroup f h.2
    refine ⟨⟨?_, below⟩, rfl⟩
    have additive := isAdditive_congr effects blends
    intro m mem
    obtain ⟨n, memN, same⟩ := exists_blend blends mem
    rw [additive, ← same]
    exact h.1 n memN
  | image box address rendering => exact ⟨trivial, rfl⟩

private theorem restyleAll_everyGroup (f : Style → Style) {ns : List Node}
    (h : EveryGroupAll Holds ns) :
    EveryGroupAll Holds (restyleAll f ns) ∧ (restyleAll f ns).map blend = ns.map blend := by
  cases ns with
  | nil => exact ⟨trivial, rfl⟩
  | cons n ns =>
    obtain ⟨first, same⟩ := restyle_everyGroup f h.1
    obtain ⟨rest, others⟩ := restyleAll_everyGroup f h.2
    refine ⟨⟨first, rest⟩, ?_⟩
    rw [restyleAll, List.map_cons, List.map_cons, same, others]

end

private theorem Contained.restyleAll {ns : List Node} (h : Contained ns) (f : Style → Style) :
    Contained (restyleAll f ns) := by
  obtain ⟨inner, blends⟩ := restyleAll_everyGroup f h.inner
  refine ⟨?_, inner⟩
  intro m mem
  obtain ⟨n, memN, same⟩ := exists_blend blends mem
  rw [← same, h.outer n memN]

end Svg.Node

abbrev Work.Contains (x : Work Artifact) : Prop := x.Upholds Request.IsSound Artifact.Contained

section

variable {canvas : Canvas} {r : Resolution}

private theorem Silhouette.mask_contained (s : Silhouette) {ds : Definitions}
    {nodes : List Svg.Node} (h : ds.Contained) (nodesContained : Contained nodes) :
    (s.mask r ds nodes).Upholds Request.IsSound fun p => p.1.Contained := by
  have content : Contained (s.content r nodes) := by
    have footprint : Contained [.group { Effects.none with filter := some s.filterId } nodes] :=
      nodesContained.wrap rfl
    cases s with
    | white => exact footprint
    | black => exact (Contained.shape _ _).append footprint
  refine (Upholds.freshId _).bind fun id _ => Upholds.pure ?_
  exact (h.insert (d := s.filter r) Contained.nil).insert content

private theorem Shapes.gradientFilled_contained {gradient : Svg.LinearGradient}
    {geometry : Svg.Geometry} :
    (Shapes.gradientFilled gradient (Svg.Node.shape geometry)).Contained :=
  ⟨Contained.shape _ _, Definitions.Contained.empty.insert Contained.nil⟩

private theorem Swatches.color_contains (s : ColorSettings) {input : Option Artifact}
    (h : ∀ a ∈ input, a.Contained) : (Swatches.color r s input).Contains := by
  cases input with
  | none => exact Upholds.pure (Artifact.Contained.single (Contained.shape _ _))
  | some a =>
    have f := (h a rfl).toFragment (r := r)
    refine (Silhouette.white.mask_contained f.definitions f.nodes).bind ?_
    rintro ⟨ds, mask⟩ definitions
    refine Upholds.pure ⟨Contained.group rfl ?_ ?_, definitions⟩
    -- The tint multiplies, which the isolated group around it and the input allows.
    · intro n mem
      rcases List.mem_append.mp mem with mem | mem
      · rw [f.nodes.outer n mem]
        exact ⟨fun _ => rfl, nofun⟩
      · rw [List.mem_singleton.mp mem]
        exact ⟨fun _ => rfl, nofun⟩
    · have swatch : Contained [swatch r s] := Contained.shape _ _
      exact Svg.Node.everyGroupAll_append.mpr ⟨f.nodes.inner, swatch.everyGroup _, trivial⟩

private theorem Place.apply_contained (m : Plane.Affine) {input : Option Artifact}
    (h : ∀ a ∈ input, a.Contained) : (Place.apply r m input).Contained := by
  cases input with
  | none => exact Artifact.Contained.empty
  | some a =>
    have f := (h a rfl).toFragment (r := r)
    exact ⟨f.nodes.wrap rfl, f.definitions⟩

private theorem Swatches.alpha_contained (opacity : Float) {input : Option Artifact}
    (h : ∀ a ∈ input, a.Contained) : (Swatches.alpha r opacity input).Contained := by
  cases input with
  | none => exact Artifact.Contained.single (Contained.shape _ _)
  | some a =>
    have f := (h a rfl).toFragment (r := r)
    exact ⟨f.nodes.wrap rfl, f.definitions⟩

private theorem Swatches.image_contains (payload : Option String) :
    (Work.ofExcept (Swatches.image payload)).Contains := by
  refine Upholds.of_silent (fun s => by rw [Work.after_ofExcept]) ?_
  intro s a t yields
  obtain ⟨made, -⟩ := (Work.yields_ofExcept _ _ _ _).mp yields
  obtain rfl | ⟨text, p, -, rfl⟩ := image_ok made
  · exact Artifact.Contained.empty
  · trivial

private theorem Restyle.apply_contained (f : Style → Style) {input : Option Artifact}
    (h : ∀ a ∈ input, a.Contained) : (Restyle.apply f input).Contained := by
  cases input with
  | none => exact Artifact.Contained.empty
  | some a =>
    cases a with
    | vector fragment =>
      have sound : fragment.Contained := h _ rfl
      exact ⟨sound.nodes.restyleAll f, sound.definitions⟩
    | raster p rendering => exact trivial

private theorem Soften.filtered_contains (stem : String) (region : Svg.Region)
    (primitives : List Svg.Primitive) {a : Artifact} (h : a.Contained) :
    (Soften.filtered r stem region primitives a).Contains := by
  have f := h.toFragment (r := r)
  refine (Upholds.freshId stem).bind fun id _ => Upholds.pure ?_
  exact ⟨f.nodes.wrap rfl, f.definitions.insert (d := .filter id region primitives) Contained.nil⟩

private theorem Soften.glow_contains (s : GlowSettings) {input : Option Artifact}
    (h : ∀ a ∈ input, a.Contained) : (Soften.glow r s input).Contains := by
  cases input with
  | none => exact Upholds.pure Artifact.Contained.empty
  | some a => exact filtered_contains _ _ _ (h a rfl)

private theorem Soften.blur_contains (radius : Float) {input : Option Artifact}
    (h : ∀ a ∈ input, a.Contained) : (Soften.blur r radius input).Contains := by
  cases input with
  | none => exact Upholds.pure Artifact.Contained.empty
  | some a => exact filtered_contains _ _ _ (h a rfl)

private theorem Soften.fade_contains (s : FadeSettings) {input : Option Artifact}
    (h : ∀ a ∈ input, a.Contained) : (Soften.fade r s input).Contains := by
  cases input with
  | none => exact Upholds.pure Artifact.Contained.empty
  | some a =>
    have f := (h a rfl).toFragment (r := r)
    refine (Upholds.freshId _).bind fun rampId _ => (Upholds.freshId _).bind fun maskId _ => ?_
    have withRamp : ((a.toFragment r).definitions.insert
        (.gradient (ramp r s rampId))).Contained :=
      f.definitions.insert (d := .gradient (ramp r s rampId)) Contained.nil
    exact Upholds.pure ⟨f.nodes.wrap rfl, withRamp.insert (Contained.shape _ _)⟩

private theorem Combination.children_contained (c : Combination) {ds : Definitions}
    {first second : List Svg.Node} (h : ds.Contained) (hf : Contained first)
    (hs : Contained second) :
    (c.children r ds first second).Upholds Request.IsSound fun p =>
      Contained [.group Effects.isolate p.1] ∧ p.2.Contained := by
  -- Two groups side by side in an isolated one, the second of which may be added.
  have group : ∀ effects effects' : Effects, effects.blend = .normal →
      (effects'.blend = .plusLighter →
        Svg.Node.isAdditive Effects.isolate [.group effects first, .group effects' second]) →
      Contained [.group Effects.isolate [.group effects first, .group effects' second]] := by
    intro effects effects' normal added
    refine Contained.group rfl ?_ ⟨hf.everyGroup _, hs.everyGroup _, trivial⟩
    have plain : (Svg.Node.group effects first).blend ≠ .plusLighter := by
      rw [Svg.Node.blend, normal]
      decide
    rw [Holds, List.forall_mem_cons, List.forall_mem_singleton]
    exact ⟨⟨fun _ => rfl, fun same => absurd same plain⟩, fun _ => rfl, added⟩
  cases c with
  | union => exact Upholds.pure ⟨group _ _ rfl fun _ => rfl, h⟩
  | difference =>
    refine (Silhouette.black.mask_contained h hs).bind ?_
    rintro ⟨ds', hidden⟩ definitions
    exact Upholds.pure ⟨(hf.wrap rfl).wrap rfl, definitions⟩
  | intersection =>
    refine (Silhouette.white.mask_contained h hs).bind ?_
    rintro ⟨ds', inSecond⟩ definitions
    refine (Silhouette.white.mask_contained definitions hf).bind ?_
    rintro ⟨ds'', inFirst⟩ definitions'
    exact Upholds.pure ⟨group _ _ rfl (by simp), definitions'⟩
  | exclusion => exact Upholds.pure ⟨group _ _ rfl (by simp), h⟩

private theorem Combination.apply_contains (c : Combination) {first second : Option Artifact}
    (hf : ∀ a ∈ first, a.Contained) (hs : ∀ a ∈ second, a.Contained) :
    (c.apply r first second).Contains := by
  have f := (Artifact.Contained.getD hf).toFragment (r := r)
  have g := (Artifact.Contained.getD hs).toFragment (r := r)
  refine (c.children_contained (f.definitions.merge g.definitions) f.nodes g.nodes).bind ?_
  rintro ⟨children, ds⟩ ⟨nodes, definitions⟩
  exact Upholds.pure ⟨nodes, definitions⟩

theorem Bake.document_upholds (rasterizer : Rasterizer) (width height : Nat) {doc : Svg.Document}
    (contained : doc.Contained) :
    (document rasterizer width height doc).Upholds Request.IsSound fun _ => True := by
  have layers : (flatten rasterizer width height doc).Upholds Request.IsSound fun flat =>
      Request.IsFinal ⟨flat, width, height⟩ :=
    (flatten_upholds rasterizer width height contained).mono (fun q layer => Or.inl layer)
      fun flat final => final
  exact layers.bind fun flat final => Upholds.rasterize (Or.inr final)

private theorem Artifact.bake_upholds (size : Nat) {a : Artifact} (h : a.Contained) :
    (a.bake canvas size).Upholds Request.IsSound fun _ => True := by
  rcases a.bake_cases canvas size with ⟨p, rendering, -, -, taken⟩ | painted
  · rw [taken]
    exact Upholds.pure trivial
  · rw [painted]
    exact Bake.document_upholds canvas.rasterizer size size (h.toDocument none)

private theorem Pixelate.apply_contains (size : Nat) {input : Option Artifact}
    (h : ∀ a ∈ input, a.Contained) : (Pixelate.apply canvas size input).Contains := by
  cases input with
  | none => exact Upholds.pure Artifact.Contained.empty
  | some a =>
    refine Upholds.tryCatch ?_ fun _ => Upholds.pure (h a rfl)
    exact (Artifact.bake_upholds _ (h a rfl)).bind fun p _ => Upholds.pure trivial

private theorem Polar.apply_contains (s : PolarSettings) {input : Option Artifact}
    (h : ∀ a ∈ input, a.Contained) : (Polar.apply canvas s input).Contains := by
  cases input with
  | none => exact Upholds.pure Artifact.Contained.empty
  | some a => exact (Artifact.bake_upholds _ (h a rfl)).bind fun p _ => Upholds.pure trivial

/-- Every operator keeps blends contained. -/
theorem Settings.apply_contains (settings : Settings) {inputs : Inputs} (h : inputs.Contained) :
    (settings.apply canvas inputs).Contains := by
  have shape : ∀ geometry style, (Artifact.single (.shape geometry style)).Contained :=
    fun geometry style => Artifact.Contained.single (Contained.shape geometry style)
  cases settings with
  | rectangle s => exact Upholds.pure (shape _ _)
  | circle s => exact Upholds.pure (shape _ _)
  | polygon s => exact Upholds.pure (shape _ _)
  | wavyRing s => exact Upholds.pure (shape _ _)
  | beam s =>
    exact (Upholds.freshId _).bind fun _ _ => Upholds.pure Shapes.gradientFilled_contained
  | gradient g =>
    exact (Upholds.freshId _).bind fun _ _ => Upholds.pure Shapes.gradientFilled_contained
  | color s => exact Swatches.color_contains s h.only
  | value level => exact Upholds.pure (shape _ _)
  | alpha opacity => exact Upholds.pure (Swatches.alpha_contained opacity h.only)
  | image payload => exact Swatches.image_contains payload
  | math c => exact c.apply_contains h.first h.second
  | fill s => exact Upholds.pure (Restyle.apply_contained _ h.only)
  | glow s => exact Soften.glow_contains s h.only
  | softBlur radius => exact Soften.blur_contains radius h.only
  | stroke s => exact Upholds.pure (Restyle.apply_contained _ h.only)
  | gradientFade s => exact Soften.fade_contains s h.only
  | pixelate size => exact Pixelate.apply_contains size h.only
  | translate s => exact Upholds.pure (Place.apply_contained _ h.only)
  | rotate degrees => exact Upholds.pure (Place.apply_contained _ h.only)
  | scale factor => exact Upholds.pure (Place.apply_contained _ h.only)
  | polar s => exact Polar.apply_contains s h.only
  | output =>
    refine Upholds.pure ?_
    cases given : inputs.only with
    | none => exact shape _ _
    | some a => exact h.only a given
  | unknown => exact Upholds.pure Artifact.Contained.empty

end

end Texture
