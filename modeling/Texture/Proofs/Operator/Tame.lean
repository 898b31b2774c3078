/- Texture/Proofs/Operator/Tame
   digest: What every operator with modest parameters makes of tame inputs is tame: no float that is
   written overflows. -/

import Texture.Operator.Apply
import Texture.Proofs.Bake.Tame
import Texture.Proofs.Operator.Modest

set_option autoImplicit false
set_option relaxedAutoImplicit false

namespace Texture

open Number (Beyond IsShare Within exactValue)
open Number.Binary (isFinite)
open Plane (Affine Box Path)
open Svg (AreTame Def Definitions Effects Region Style areTame_append areTame_cons areTame_nil
  areTame_of_test areTame_path areTame_roomy areTame_short boxFloats isTame_short)
open Work (Upholds)

structure Inputs.IsTame (inputs : Inputs) : Prop where
  only : ∀ a ∈ inputs.only, a.IsTame
  first : ∀ a ∈ inputs.first, a.IsTame
  second : ∀ a ∈ inputs.second, a.IsTame

abbrev Work.Tames (x : Work Artifact) : Prop := x.Upholds Request.WritesDecimals Artifact.IsTame

section

variable {canvas : Canvas} {r : Resolution}

private theorem Silhouette.mask_tame (s : Silhouette) {ds : Definitions} {nodes : List Svg.Node}
    (h : ds.AreTame) (nodesTame : AreTame (Svg.Node.numeralsAll nodes)) :
    (s.mask r ds nodes).Upholds Request.WritesDecimals fun p => p.1.AreTame := by
  have footprint : AreTame (Svg.Node.numeralsAll
      [.group { Effects.none with filter := some s.filterId } nodes]) :=
    Svg.Node.areTame_single (Svg.Node.areTame_group rfl nodesTame)
  have content : AreTame (Svg.Node.numeralsAll (s.content r nodes)) := by
    cases s with
    | white => exact footprint
    | black => exact areTame_append.2 ⟨areTame_append.2 ⟨areTame_roomy r, areTame_nil⟩, footprint⟩
  have colours : AreTame (s.matrix.map .short) := by
    cases s with
    | white => exact areTame_of_test (by decide +kernel)
    | black => exact areTame_of_test (by decide +kernel)
  have filter : AreTame (s.filter r).numerals := by
    rw [Silhouette.filter, Def.numerals, List.map_append, areTame_append, List.flatMap_singleton]
    exact ⟨areTame_roomy r, colours⟩
  refine (Upholds.freshId _).bind fun id _ => Upholds.pure ?_
  exact (h.insert filter).insert (areTame_append.2 ⟨areTame_roomy r, content⟩)

private theorem Shapes.centred_tame {path : Path} (h : Path.Within 966 path) {style : Style}
    (painted : AreTame style.numerals) : AreTame (Shapes.centred r path style).numerals := by
  have centre := r.within_centre
  have moved := h.translate (v := ⟨r.centre, r.centre⟩) ⟨centre, centre⟩ (by decide)
  exact areTame_append.2 ⟨areTame_path moved, painted⟩

private theorem Shapes.plain_tame {path : Path} (h : Path.Within 966 path) :
    (Shapes.plain r path).IsTame :=
  Artifact.IsTame.single (centred_tame h areTame_nil)

private theorem Shapes.gradientFilled_tame {gradient : Svg.LinearGradient} {node : Style → Svg.Node}
    (drawn : AreTame gradient.numerals)
    (placed : ∀ style, AreTame style.numerals → AreTame (node style).numerals) :
    (Shapes.gradientFilled gradient node).IsTame :=
  ⟨Svg.Node.areTame_single (placed _ areTame_nil),
    Definitions.AreTame.empty.insert (d := .gradient gradient) drawn⟩

private theorem Shapes.beam_tames {s : BeamSettings} (modest : (Settings.beam s).IsModest) :
    (Shapes.beam r s).Tames := by
  refine (Upholds.freshId _).bind fun id _ => Upholds.pure (gradientFilled_tame ?_ ?_)
  · have stops : AreTame (([0.0, 0.0, 0.0, 1.0] ++ [] ++
        beamStops.flatMap fun stop : Svg.Stop => [stop.offset, stop.opacity]).map .short) :=
      areTame_of_test (by decide +kernel)
    exact stops
  · have outline := Plane.Outline.within_beam (by decide) modest.1 modest.2.1 modest.2.2
    exact fun style painted => centred_tame (outline.mono (by decide)) painted

private theorem Shapes.within_direction {x y : Float} (hx : Within 960 x) (hy : Within 960 y) :
    (Shapes.direction x y).Within 990 := by
  unfold direction
  simp only
  split
  · rename_i long
    have least : Number.Binary.ofFloat 1e-9 = .finite false 4835703278458517 (-82) := by
      decide
    have size := (Number.lt_iff (Number.isFinite_of_read least) long.2).1 long.1
    rw [Number.exactValue_of_read least] at size
    have beyond : Beyond (-30) (Number.Root.hypotenuse x y) := by
      refine ⟨long.2, le_trans ?_ (size.le.trans (le_abs_self _))⟩
      norm_num
    exact ⟨hx.div beyond (by decide), hy.div beyond (by decide)⟩
  · exact ⟨Number.within_one.mono (by decide), Number.within_zero _⟩

private theorem Shapes.drawStop_tame {s : GradientStop} (h : s.IsModest) {power : Float}
    (finite : isFinite power = true) (positive : 0 < exactValue power) :
    AreTame ([(drawStop power s).offset, (drawStop power s).opacity].map .short) := by
  have raised : Within 6 (Number.Power.power s.offset.clampUnit.toFloat power) :=
    Number.within_power h.offset.finite h.offset.least h.offset.most finite positive
  exact areTame_cons.2 ⟨isTame_short raised (by decide), areTame_cons.2
    ⟨isTame_short h.opacity.within (by decide), areTame_nil⟩⟩

private theorem Shapes.gradient_tames {g : Gradient} (modest : (Settings.gradient g).IsModest) :
    (Shapes.gradient r g).Tames := by
  obtain ⟨hx, hy, hp, stops⟩ := modest
  refine (Upholds.freshId _).bind fun id _ => Upholds.pure (gradientFilled_tame ?_ ?_)
  · have turned := within_direction hx hy
    have two := Number.beyond_two
    have middle : Within (-1) 0.5 := .of_test (by decide)
    have before : ∀ {x : Float}, Within 990 x → Within 1009 (0.5 - x / 2.0) := fun h =>
      middle.sub (h.div two (by decide) : Within 989 _) (by decide)
    have behind : ∀ {x : Float}, Within 990 x → Within 1009 (0.5 + x / 2.0) := fun h =>
      middle.add (h.div two (by decide) : Within 989 _) (by decide)
    obtain ⟨finite, positive⟩ : isFinite (if 0.0 < g.power then g.power else 1.0) = true ∧
        0 < exactValue (if 0.0 < g.power then g.power else 1.0) := by
      split
      · rename_i above
        have size := (Number.lt_iff Number.isShare_zero.finite hp.finite).1 above
        rw [Number.exactValue_zero] at size
        exact ⟨hp.finite, size⟩
      · rw [Number.exactValue_one]
        exact ⟨Number.isShare_one.finite, zero_lt_one⟩
    rw [Svg.LinearGradient.numerals, List.map_append, List.map_append, List.map_flatMap,
      areTame_append, areTame_append, Svg.areTame_flatMap, List.forall_mem_map]
    refine ⟨⟨areTame_short ?_, areTame_nil⟩, ?_⟩
    swap
    · exact fun s mem => drawStop_tame (stops s mem) finite positive
    rw [List.forall_mem_cons, List.forall_mem_cons, List.forall_mem_cons, List.forall_mem_singleton]
    exact ⟨before turned.x, before turned.y, behind turned.x, behind turned.y⟩
  · exact fun style painted => Svg.Node.areTame_canvas r painted

private theorem Swatches.swatch_tame {s : ColorSettings} (modest : (Settings.color s).IsModest) :
    AreTame (swatch r s).numerals := by
  refine Svg.Node.areTame_canvas r ?_
  have opacity := isTame_short modest.within (by decide)
  have shown : AreTame (((if s.opacity < 1.0 then some s.opacity else none : Option Float).toList
      ++ [] ++ []).map .short) := by
    split
    · exact areTame_cons.2 ⟨opacity, areTame_nil⟩
    · exact areTame_nil
  exact shown

private theorem Swatches.color_tames {s : ColorSettings} (modest : (Settings.color s).IsModest)
    {input : Option Artifact} (h : ∀ a ∈ input, a.IsTame) : (Swatches.color r s input).Tames := by
  cases input with
  | none => exact Upholds.pure (Artifact.IsTame.single (swatch_tame modest))
  | some a =>
    have f := (h a rfl).toFragment (r := r)
    refine (Silhouette.white.mask_tame f.definitions f.nodes).bind ?_
    rintro ⟨ds, mask⟩ definitions
    refine Upholds.pure ⟨Svg.Node.areTame_single (Svg.Node.areTame_group rfl ?_), definitions⟩
    rw [Svg.Node.numeralsAll_append, areTame_append]
    exact ⟨f.nodes, Svg.Node.areTame_single
      (Svg.Node.areTame_group rfl (Svg.Node.areTame_single (swatch_tame modest)))⟩

private theorem Place.apply_tame {m : Affine} (hm : AreTame (m.toList.map .short))
    {input : Option Artifact} (h : ∀ a ∈ input, a.IsTame) : (Place.apply r m input).IsTame := by
  cases input with
  | none => exact Artifact.IsTame.empty
  | some a =>
    have f := (h a rfl).toFragment (r := r)
    have own : AreTame ((m.toList ++ []).map .short) := by rwa [List.append_nil]
    exact ⟨Svg.Node.areTame_single (areTame_append.2 ⟨own, f.nodes⟩), f.definitions⟩

private theorem Swatches.alpha_tame {opacity : Float} (modest : IsShare opacity)
    {input : Option Artifact}
    (h : ∀ a ∈ input, a.IsTame) : (Swatches.alpha r opacity input).IsTame := by
  have shown : AreTame ([opacity].map .short) :=
    areTame_cons.2 ⟨isTame_short modest.within (by decide), areTame_nil⟩
  cases input with
  | none => exact Artifact.IsTame.single (Svg.Node.areTame_canvas r shown)
  | some a =>
    have f := (h a rfl).toFragment (r := r)
    exact ⟨Svg.Node.areTame_single (areTame_append.2 ⟨shown, f.nodes⟩), f.definitions⟩

private theorem Swatches.image_tames (payload : Option String) :
    (Work.ofExcept (Swatches.image payload)).Tames := by
  refine Upholds.of_silent (fun s => by rw [Work.after_ofExcept]) ?_
  intro s a t yields
  obtain ⟨made, -⟩ := (Work.yields_ofExcept _ _ _ _).mp yields
  obtain rfl | ⟨text, p, -, rfl⟩ := image_ok made
  · exact Artifact.IsTame.empty
  · trivial

private theorem Restyle.apply_tame {f : Style → Style}
    (hf : ∀ s, AreTame s.numerals → AreTame (f s).numerals) {input : Option Artifact}
    (h : ∀ a ∈ input, a.IsTame) : (Restyle.apply f input).IsTame := by
  cases input with
  | none => exact Artifact.IsTame.empty
  | some a =>
    cases a with
    | vector fragment =>
      have tame : fragment.IsTame := h _ rfl
      exact ⟨Svg.Node.restyleAll_areTame hf tame.nodes, tame.definitions⟩
    | raster p rendering => exact trivial

private theorem Restyle.style_areTame {style : Style} : AreTame style.numerals ↔
    (AreTame (style.fillOpacity.toList.map .short) ∧
      AreTame (style.strokeWidth.toList.map .short)) ∧
        AreTame (style.strokeOpacity.toList.map .short) := by
  rw [Style.numerals, List.map_append, List.map_append, areTame_append, areTame_append]

private theorem Restyle.fillStyle_tame {s : FillSettings} (modest : (Settings.fill s).IsModest)
    (style : Style) (h : AreTame style.numerals) : AreTame (fillStyle s style).numerals := by
  obtain ⟨⟨filled, -⟩, stroked⟩ := style_areTame.1 h
  have one : Within 960 1.0 := Number.within_one.mono (by decide)
  have width : Within 960 (if 0.0 < s.strokeWidth then s.strokeWidth else 1.0) := by
    split
    · exact modest
    · exact one
  exact style_areTame.2
    ⟨⟨filled, areTame_cons.2 ⟨isTame_short width (by decide), areTame_nil⟩⟩, stroked⟩

private theorem Restyle.strokeStyle_tame {s : StrokeSettings}
    (modest : (Settings.stroke s).IsModest)
    (style : Style) (h : AreTame style.numerals) : AreTame (strokeStyle s style).numerals := by
  obtain ⟨⟨filled, -⟩, -⟩ := style_areTame.1 h
  have width := isTame_short modest.1 (by decide)
  have opacity := isTame_short modest.2.within (by decide)
  exact style_areTame.2 ⟨⟨filled, areTame_cons.2 ⟨width, areTame_nil⟩⟩,
    areTame_cons.2 ⟨opacity, areTame_nil⟩⟩

private theorem Soften.filtered_tames (stem : String) {region : Region}
    {primitives : List Svg.Primitive}
    (work : AreTame ((boxFloats region.box ++ primitives.flatMap Svg.Primitive.floats).map .short))
    {a : Artifact} (h : a.IsTame) : (Soften.filtered r stem region primitives a).Tames := by
  have f := h.toFragment (r := r)
  refine (Upholds.freshId stem).bind fun id _ => Upholds.pure ?_
  exact ⟨Svg.Node.areTame_single (Svg.Node.areTame_group rfl f.nodes),
    f.definitions.insert (d := .filter id region primitives) work⟩

private theorem Soften.within_amplify {k : Float} (h : Within 960 k) :
    ∀ x ∈ amplify k, Within 1009 x := by
  have zero := Number.within_zero 1009
  have one : Within 1009 1.0 := Number.within_one.mono (by decide)
  have factor : Within 1009 k := h.mono (by decide)
  have front : ∀ x ∈ (amplify 0.0).take 18, Within 1009 x :=
    Svg.within_of_test (by decide +kernel)
  have back : ∀ x ∈ [k, 0.0], Within 1009 x :=
    List.forall_mem_cons.2 ⟨factor, List.forall_mem_singleton.2 zero⟩
  exact List.forall_mem_append.2 ⟨front, back⟩

private theorem Soften.glow_tames {s : GlowSettings} (modest : (Settings.glow s).IsModest)
    {input : Option Artifact} (h : ∀ a ∈ input, a.IsTame) : (Soften.glow r s input).Tames := by
  obtain ⟨radius, intensity⟩ := modest
  cases input with
  | none => exact Upholds.pure Artifact.IsTame.empty
  | some a =>
    refine filtered_tames _ ?_ (h a rfl)
    have ten : Within 4 10.0 := .of_test (by decide)
    have three : Beyond 1 3.0 := .of_test (by decide)
    have four : Beyond 2 4.0 := .of_test (by decide)
    have wide : Within 1009 s.wide := by
      unfold GlowSettings.wide
      split
      · exact ten.add radius (by decide)
      · exact radius.mono (by decide)
    have tight : Within 1009 s.tight := by
      unfold GlowSettings.tight
      split
      · exact radius.div three (by decide)
      · exact radius.div four (by decide)
    have region : ∀ x ∈ boxFloats (Region.bounding (-2.0) (-2.0) 5.0 5.0).box, Within 1009 x := by
      have small : ∀ x ∈ boxFloats (Region.bounding (-2.0) (-2.0) 5.0 5.0).box, Within 3 x :=
        Svg.within_of_test (by decide)
      exact fun x mem => (small x mem).mono (by decide)
    refine areTame_short (List.forall_mem_append.2 ⟨region, ?_⟩)
    have blurs : ∀ x ∈ [s.wide, s.tight], Within 1009 x :=
      List.forall_mem_cons.2 ⟨wide, List.forall_mem_singleton.2 tight⟩
    have work : ∀ x ∈ [s.wide, s.tight] ++ (amplify s.intensity ++ []), Within 1009 x := by
      rw [List.append_nil]
      exact List.forall_mem_append.2 ⟨blurs, within_amplify intensity⟩
    exact work

private theorem Soften.blur_tames {radius : Float} (modest : Within 960 radius)
    {input : Option Artifact} (h : ∀ a ∈ input, a.IsTame) :
    (Soften.blur r radius input).Tames := by
  cases input with
  | none => exact Upholds.pure Artifact.IsTame.empty
  | some a =>
    refine filtered_tames _ ?_ (h a rfl)
    rw [List.map_append, areTame_append]
    exact ⟨areTame_of_test (by decide +kernel),
      areTame_cons.2 ⟨isTame_short modest (by decide), areTame_nil⟩⟩

private theorem Plane.isFinite_ofDegrees {x : Float} (h : Within 961 x) :
    isFinite (Plane.ofDegrees x) = true := by
  have unit : Within 0 (3.141592653589793 / 180.0) := .of_test (by decide)
  have angle : Within 961 (Plane.ofDegrees x) := h.mul unit (by decide)
  exact angle.finite

private theorem Soften.ramp_tame {s : FadeSettings} (modest : (Settings.gradientFade s).IsModest)
    (id : String) : AreTame (ramp r s id).numerals := by
  obtain ⟨direction, start, stop⟩ := modest
  have zero := Number.within_zero 1009
  have one : Within 1009 1.0 := Number.within_one.mono (by decide)
  have right : Within 961 (s.direction - 90.0) :=
    direction.sub (.of_test (by decide) : Within 7 90.0) (by decide)
  have centre : Plane.Point.Within 13 ⟨r.centre, r.centre⟩ := ⟨r.within_centre, r.within_centre⟩
  have turn := (Affine.within_rotate (Plane.isFinite_ofDegrees right)).about centre (by decide)
  have edge : Within 1009 r.edge := r.within_edge.mono (by decide)
  have middle : Within 1009 (r.edge / 2.0) := r.within_centre.mono (by decide)
  have line : ∀ x ∈ [0.0, r.edge / 2.0, r.edge, r.edge / 2.0], Within 1009 x := by
    rw [List.forall_mem_cons, List.forall_mem_cons, List.forall_mem_cons,
      List.forall_mem_singleton]
    exact ⟨zero, middle, edge, middle⟩
  have stops : ∀ x ∈ [0.0, s.start, 1.0, s.stop], Within 1009 x := by
    rw [List.forall_mem_cons, List.forall_mem_cons, List.forall_mem_cons,
      List.forall_mem_singleton]
    exact ⟨zero, start.within.mono (by decide), one, stop.within.mono (by decide)⟩
  refine areTame_short (List.forall_mem_append.2 ⟨List.forall_mem_append.2 ⟨line, ?_⟩, stops⟩)
  exact fun x mem => (turn x mem).mono (by decide)

private theorem Soften.fade_tames {s : FadeSettings} (modest : (Settings.gradientFade s).IsModest)
    {input : Option Artifact} (h : ∀ a ∈ input, a.IsTame) : (Soften.fade r s input).Tames := by
  cases input with
  | none => exact Upholds.pure Artifact.IsTame.empty
  | some a =>
    have f := (h a rfl).toFragment (r := r)
    refine (Upholds.freshId _).bind fun rampId _ => (Upholds.freshId _).bind fun maskId _ => ?_
    have withRamp := f.definitions.insert (d := .gradient (ramp r s rampId)) (ramp_tame modest _)
    have masked : AreTame (Svg.Node.numeralsAll [.shape (.box (Region.roomy r).box)
        (Style.filled (.reference rampId))]) :=
      Svg.Node.areTame_single (areTame_append.2 ⟨areTame_roomy r, areTame_nil⟩)
    exact Upholds.pure ⟨Svg.Node.areTame_single (Svg.Node.areTame_group rfl f.nodes),
      withRamp.insert (areTame_append.2 ⟨areTame_roomy r, masked⟩)⟩

private theorem Combination.children_tame (c : Combination) {ds : Definitions}
    {first second : List Svg.Node} (h : ds.AreTame) (hf : AreTame (Svg.Node.numeralsAll first))
    (hs : AreTame (Svg.Node.numeralsAll second)) :
    (c.children r ds first second).Upholds Request.WritesDecimals fun p =>
      AreTame (Svg.Node.numeralsAll p.1) ∧ p.2.AreTame := by
  have both : ∀ {effects effects' : Effects}, effects.numerals = [] → effects'.numerals = [] →
      AreTame (Svg.Node.numeralsAll [.group effects first, .group effects' second]) :=
    fun plain plain' => areTame_append.2 ⟨Svg.Node.areTame_group plain hf,
      Svg.Node.areTame_single (Svg.Node.areTame_group plain' hs)⟩
  cases c with
  | union => exact Upholds.pure ⟨both rfl rfl, h⟩
  | difference =>
    refine (Silhouette.black.mask_tame h hs).bind ?_
    rintro ⟨ds', hidden⟩ definitions
    exact Upholds.pure ⟨Svg.Node.areTame_single (Svg.Node.areTame_group rfl hf), definitions⟩
  | intersection =>
    refine (Silhouette.white.mask_tame h hs).bind ?_
    rintro ⟨ds', inSecond⟩ definitions
    refine (Silhouette.white.mask_tame definitions hf).bind ?_
    rintro ⟨ds'', inFirst⟩ definitions'
    exact Upholds.pure ⟨both rfl rfl, definitions'⟩
  | exclusion => exact Upholds.pure ⟨both rfl rfl, h⟩

private theorem Combination.apply_tames (c : Combination) {first second : Option Artifact}
    (hf : ∀ a ∈ first, a.IsTame) (hs : ∀ a ∈ second, a.IsTame) :
    (c.apply r first second).Tames := by
  have f := (Artifact.IsTame.getD hf).toFragment (r := r)
  have g := (Artifact.IsTame.getD hs).toFragment (r := r)
  refine (c.children_tame (f.definitions.merge g.definitions) f.nodes g.nodes).bind ?_
  rintro ⟨children, ds⟩ ⟨nodes, definitions⟩
  exact Upholds.pure ⟨Svg.Node.areTame_single (Svg.Node.areTame_group rfl nodes), definitions⟩

private theorem Pixelate.apply_tames (size : Nat) {input : Option Artifact}
    (h : ∀ a ∈ input, a.IsTame) : (Pixelate.apply canvas size input).Tames := by
  cases input with
  | none => exact Upholds.pure Artifact.IsTame.empty
  | some a =>
    refine Upholds.tryCatch ?_ fun _ => Upholds.pure (h a rfl)
    exact (Artifact.bake_tame _ (h a rfl)).bind fun p _ => Upholds.pure trivial

private theorem Polar.apply_tames (s : PolarSettings) {input : Option Artifact}
    (h : ∀ a ∈ input, a.IsTame) : (Polar.apply canvas s input).Tames := by
  cases input with
  | none => exact Upholds.pure Artifact.IsTame.empty
  | some a => exact (Artifact.bake_tame _ (h a rfl)).bind fun p _ => Upholds.pure trivial

/-- Every operator with modest parameters keeps floats tame. -/
theorem Settings.apply_tames {settings : Settings} (modest : settings.IsModest) {inputs : Inputs}
    (h : inputs.IsTame) : (settings.apply canvas inputs).Tames := by
  have centre : Plane.Point.Within 13 ⟨canvas.resolution.centre, canvas.resolution.centre⟩ :=
    ⟨canvas.resolution.within_centre, canvas.resolution.within_centre⟩
  cases settings with
  | rectangle s =>
    obtain ⟨hw, hh, tl, tr, br, bl⟩ := modest
    exact Upholds.pure (Shapes.plain_tame
      (Plane.Outline.within_roundedBox (by decide) hw hh tl tr br bl))
  | circle s =>
    have halved := @Plane.Outline.within_half 960 (by decide)
    exact Upholds.pure (Shapes.plain_tame
      (Plane.Outline.within_ellipse (by decide) (halved modest.1) (halved modest.2)))
  | polygon s =>
    have outline := Plane.Outline.within_star (by decide) modest.1 modest.2.1 modest.2.2
    exact Upholds.pure (Shapes.plain_tame (outline.mono (by decide)))
  | wavyRing s =>
    have outline := Plane.Outline.within_wavyRing (by decide) modest.1 modest.2.1 modest.2.2
    exact Upholds.pure (Shapes.plain_tame (outline.mono (by decide)))
  | beam s => exact Shapes.beam_tames modest
  | gradient g => exact Shapes.gradient_tames modest
  | color s => exact Swatches.color_tames modest h.only
  | value level =>
    exact Upholds.pure (Artifact.IsTame.single (Svg.Node.areTame_canvas _ areTame_nil))
  | alpha opacity => exact Upholds.pure (Swatches.alpha_tame modest h.only)
  | image payload => exact Swatches.image_tames payload
  | math c => exact c.apply_tames h.first h.second
  | fill s => exact Upholds.pure (Restyle.apply_tame (Restyle.fillStyle_tame modest) h.only)
  | glow s => exact Soften.glow_tames modest h.only
  | softBlur radius => exact Soften.blur_tames modest h.only
  | stroke s => exact Upholds.pure (Restyle.apply_tame (Restyle.strokeStyle_tame modest) h.only)
  | gradientFade s => exact Soften.fade_tames modest h.only
  | pixelate size => exact Pixelate.apply_tames size h.only
  | translate s =>
    have edge := canvas.resolution.within_edge
    have shift : Plane.Point.Within 974 ⟨s.x * canvas.resolution.edge,
        s.y * canvas.resolution.edge⟩ :=
      ⟨modest.1.mul edge (by decide), modest.2.mul edge (by decide)⟩
    have moved := Svg.areTame_map (Affine.within_translate shift (by decide)) (by decide)
    exact Upholds.pure (Place.apply_tame moved h.only)
  | rotate degrees =>
    have finite := Plane.isFinite_ofDegrees (modest.mono (by decide))
    have turned := (Affine.within_rotate finite).about centre (by decide)
    exact Upholds.pure (Place.apply_tame (Svg.areTame_map turned (by decide)) h.only)
  | scale factor =>
    have scaled := (Affine.within_scale modest (by decide)).about centre (by decide)
    exact Upholds.pure (Place.apply_tame (Svg.areTame_map scaled (by decide)) h.only)
  | polar s => exact Polar.apply_tames s h.only
  | output =>
    refine Upholds.pure ?_
    cases given : inputs.only with
    | none => exact Artifact.IsTame.single (Svg.Node.areTame_canvas _ areTame_nil)
    | some a => exact h.only a given
  | unknown => exact Upholds.pure Artifact.IsTame.empty

end

end Texture
