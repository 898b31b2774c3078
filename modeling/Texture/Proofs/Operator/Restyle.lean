/- Texture/Proofs/Operator/Restyle
   digest: Fills and strokes reach every shape and nothing else, the last one counts, and it makes
   no difference whether shapes get them before they are put into a group or after. -/

import Mathlib.Data.List.Forall2
import Texture.Operator.Apply

set_option autoImplicit false
set_option relaxedAutoImplicit false

namespace Texture

open Svg (Definitions Effects Style)

namespace Svg.Node

/-- The same tree with the same outlines, effects and bitmaps, whose shapes have related styles one
by one. -/
inductive Restyled (R : Style → Style → Prop) : Node → Node → Prop
  | shape {geometry : Geometry} {s t : Style} (related : R s t) :
      Restyled R (.shape geometry s) (.shape geometry t)
  | group {effects : Effects} {ns ms : List Node} (children : List.Forall₂ (Restyled R) ns ms) :
      Restyled R (.group effects ns) (.group effects ms)
  | image (box : Plane.Box) (address : String) (rendering : Rendering) :
      Restyled R (.image box address rendering) (.image box address rendering)

variable {R : Style → Style → Prop} {f : Style → Style}

mutual

private theorem restyle_restyled (related : ∀ s, R s (f s)) (n : Node) :
    Restyled R n (restyle f n) := by
  cases n with
  | shape geometry s =>
    rw [restyle]
    exact .shape (related s)
  | group effects children =>
    rw [restyle]
    exact .group (restyleAll_restyled related children)
  | image box address rendering =>
    rw [restyle]
    exact .image box address rendering

private theorem restyleAll_restyled (related : ∀ s, R s (f s)) (ns : List Node) :
    List.Forall₂ (Restyled R) ns (restyleAll f ns) := by
  cases ns with
  | nil => exact .nil
  | cons n ns =>
    rw [restyleAll]
    exact .cons (restyle_restyled related n) (restyleAll_restyled related ns)

end

mutual

private theorem restyle_restyle (f g : Style → Style) (n : Node) :
    restyle g (restyle f n) = restyle (fun s => g (f s)) n := by
  cases n with
  | shape geometry s => simp only [restyle]
  | group effects children => simp only [restyle, restyleAll_restyleAll f g children]
  | image box address rendering => simp only [restyle]

private theorem restyleAll_restyleAll (f g : Style → Style) (ns : List Node) :
    restyleAll g (restyleAll f ns) = restyleAll (fun s => g (f s)) ns := by
  cases ns with
  | nil => rfl
  | cons n ns =>
    simp only [restyleAll, restyle_restyle f g n, restyleAll_restyleAll f g ns]

end

end Svg.Node

inductive Artifact.Restyled (R : Style → Style → Prop) : Artifact → Artifact → Prop
  | vector {ns ms : List Svg.Node} {ds : Definitions}
      (nodes : List.Forall₂ (Svg.Node.Restyled R) ns ms) :
      Restyled R (.vector ⟨ns, ds⟩) (.vector ⟨ms, ds⟩)
  | raster (p : Picture) (rendering : Svg.Rendering) :
      Restyled R (.raster p rendering) (.raster p rendering)

namespace Restyle

variable {R : Style → Style → Prop} {f g : Style → Style}

private theorem apply_restyled (related : ∀ s, R s (f s)) (a : Artifact) :
    a.Restyled R (apply f (some a)) := by
  cases a with
  | vector fragment => exact .vector (Svg.Node.restyleAll_restyled related fragment.nodes)
  | raster p rendering => exact .raster p rendering

private theorem apply_apply (forgets : ∀ s, g (f s) = g s) (a : Artifact) :
    apply g (some (apply f (some a))) = apply g (some a) := by
  have last : (fun s => g (f s)) = g := funext forgets
  cases a with
  | vector fragment => simp only [apply, Svg.Node.restyleAll_restyleAll, last]
  | raster p rendering => rfl

private theorem toFragment_apply (f : Style → Style) (a : Artifact) (r : Resolution) :
    (apply f (some a)).toFragment r =
      ⟨Svg.Node.restyleAll f (a.toFragment r).nodes, (a.toFragment r).definitions⟩ := by
  cases a with
  | vector fragment => rfl
  | raster p rendering => rfl

private theorem fill_fill (p q : FillSettings) (a : Artifact) :
    fill q (some (fill p (some a))) = fill q (some a) :=
  apply_apply (f := fillStyle p) (fun _ => rfl) a

private theorem stroke_stroke (p q : StrokeSettings) (a : Artifact) :
    stroke q (some (stroke p (some a))) = stroke q (some a) :=
  apply_apply (f := strokeStyle p) (fun _ => rfl) a

private theorem fill_restyled (p : FillSettings) : ∃ paint outline width, ∀ a : Artifact,
    a.Restyled (fun s t => t = { s with fill := paint, stroke := outline, strokeWidth := width })
      (fill p (some a)) := by
  let filled := fillStyle p Style.white
  refine ⟨filled.fill, filled.stroke, filled.strokeWidth, fun a => ?_⟩
  refine apply_restyled (f := fillStyle p) ?_ a
  intro s
  rfl

private theorem stroke_restyled (p : StrokeSettings) : ∃ outline width opacity, ∀ a : Artifact,
    a.Restyled
      (fun s t => t = { s with stroke := outline, strokeWidth := width, strokeOpacity := opacity })
      (stroke p (some a)) := by
  let stroked := strokeStyle p Style.white
  refine ⟨stroked.stroke, stroked.strokeWidth, stroked.strokeOpacity, fun a => ?_⟩
  refine apply_restyled (f := strokeStyle p) ?_ a
  intro s
  rfl

end Restyle

namespace Settings

def on (settings : Settings) (canvas : Canvas) (a : Artifact) : Work Artifact :=
  settings.apply canvas (Inputs.none.set a .only)

def Restyles : Settings → Prop
  | fill _ | stroke _ => True
  | _ => False

/-- The operators that put their input into a single group: the transforms, the opacity, the halos,
the blur and the fade. -/
def Wraps : Settings → Prop
  | translate _ | rotate _ | scale _ | alpha _ | glow _ | softBlur _ | gradientFade _ => True
  | _ => False

variable {canvas : Canvas}

private theorem fill_on (p : FillSettings) (a : Artifact) :
    (fill p).on canvas a = pure (Restyle.fill p (some a)) := rfl

private theorem stroke_on (p : StrokeSettings) (a : Artifact) :
    (stroke p).on canvas a = pure (Restyle.stroke p (some a)) := rfl

private theorem Restyles.on_eq {settings : Settings} (h : settings.Restyles) (canvas : Canvas) :
    ∃ f : Style → Style, ∀ a, settings.on canvas a = pure (Restyle.apply f (some a)) := by
  cases settings with
  | fill p => exact ⟨Restyle.fillStyle p, fill_on p⟩
  | stroke p => exact ⟨Restyle.strokeStyle p, stroke_on p⟩
  | _ => exact h.elim

private theorem Wraps.on_eq {settings : Settings} (h : settings.Wraps) (canvas : Canvas) :
    ∃ plan : Definitions → Work (Effects × Definitions), ∀ a, settings.on canvas a =
      plan (a.toFragment canvas.resolution).definitions >>= fun p =>
        pure (.ofNodes [.group p.1 (a.toFragment canvas.resolution).nodes] p.2) := by
  -- The plan is read off each operator: what it mints depends on the table only.
  cases settings with
  | translate s => exact ⟨fun ds => pure (_, ds), fun _ => rfl⟩
  | rotate degrees => exact ⟨fun ds => pure (_, ds), fun _ => rfl⟩
  | scale factor => exact ⟨fun ds => pure (_, ds), fun _ => rfl⟩
  | alpha opacity => exact ⟨fun ds => pure (_, ds), fun _ => rfl⟩
  | glow s =>
    refine ⟨fun ds => do
      let id ← Work.freshId (Soften.haloStem s.halo)
      return ({ Effects.none with filter := some id }, ds.insert (.filter id
        (Svg.Region.bounding (-2.0) (-2.0) 5.0 5.0) (Soften.haloPrimitives s))), fun a => ?_⟩
    rfl
  | softBlur radius =>
    refine ⟨fun ds => do
      let id ← Work.freshId "blur"
      return ({ Effects.none with filter := some id }, ds.insert (.filter id
        (Svg.Region.bounding (-0.5) (-0.5) 2.0 2.0) [.blur Soften.source radius "blur"])),
      fun a => ?_⟩
    rfl
  | gradientFade s =>
    refine ⟨fun ds => do
      let rampId ← Work.freshId "fade_grad"
      let maskId ← Work.freshId "fade_mask"
      let region := Svg.Region.roomy canvas.resolution
      return ({ Effects.none with mask := some maskId },
        (ds.insert (.gradient (Soften.ramp canvas.resolution s rampId))).insert (.mask maskId region
          [.shape (.box region.box) (Style.filled (.reference rampId))])), fun a => ?_⟩
    rfl
  | _ => exact h.elim

private theorem restyles_wraps_comm {restyling wrapping : Settings} (changes : restyling.Restyles)
    (wraps : wrapping.Wraps) (a : Artifact) :
    (restyling.on canvas a >>= wrapping.on canvas) =
      (wrapping.on canvas a >>= restyling.on canvas) := by
  obtain ⟨f, restyled⟩ := changes.on_eq canvas
  obtain ⟨plan, wrapped⟩ := wraps.on_eq canvas
  have inside : ∀ (e : Effects) (ns : List Svg.Node) (ds : Definitions),
      Restyle.apply f (some (.ofNodes [.group e ns] ds)) =
        .ofNodes [.group e (Svg.Node.restyleAll f ns)] ds := fun _ _ _ => rfl
  rw [restyled, pure_bind, wrapped, wrapped, bind_assoc, Restyle.toFragment_apply]
  simp only [pure_bind, restyled, inside]

/-- The last fill counts, and so does the last stroke. A fill gives one paint, one stroke and one
width to every shape at every depth, a stroke one stroke, one width and one opacity, and neither
touches anything else. Shapes may be filled and stroked before they are put into a group or after:
the artifact is the same, and so are the ids and the wishes. -/
theorem restyled_lastWins (canvas : Canvas) :
    (∀ p q a, (fill p).on canvas a >>= (fill q).on canvas = (fill q).on canvas a) ∧
      (∀ p q a, (stroke p).on canvas a >>= (stroke q).on canvas = (stroke q).on canvas a) ∧
      (∀ p, ∃ paint outline width, ∀ a, ∃ b, (fill p).on canvas a = pure b ∧
        a.Restyled (fun s t =>
          t = { s with fill := paint, stroke := outline, strokeWidth := width }) b) ∧
      (∀ p, ∃ outline width opacity, ∀ a, ∃ b, (stroke p).on canvas a = pure b ∧
        a.Restyled (fun s t =>
          t = { s with stroke := outline, strokeWidth := width, strokeOpacity := opacity }) b) ∧
      ∀ restyling wrapping : Settings, restyling.Restyles → wrapping.Wraps → ∀ a,
        (restyling.on canvas a >>= wrapping.on canvas) =
          (wrapping.on canvas a >>= restyling.on canvas) := by
  refine ⟨fun p q a => ?_, fun p q a => ?_, fun p => ?_, fun p => ?_,
    fun _ _ => restyles_wraps_comm⟩
  · rw [fill_on, fill_on, pure_bind, fill_on, Restyle.fill_fill]
  · rw [stroke_on, stroke_on, pure_bind, stroke_on, Restyle.stroke_stroke]
  · obtain ⟨paint, outline, width, restyled⟩ := Restyle.fill_restyled p
    exact ⟨paint, outline, width, fun a => ⟨_, fill_on p a, restyled a⟩⟩
  · obtain ⟨outline, width, opacity, restyled⟩ := Restyle.stroke_restyled p
    exact ⟨outline, width, opacity, fun a => ⟨_, stroke_on p a, restyled a⟩⟩

/-- A box filled with a ramp and, in a group of its own, a white circle. -/
def boxAndCircle : Artifact :=
  .ofNodes
    [.group Effects.none [.shape (.box ⟨0.0, 0.0, 1.0, 1.0⟩) (Style.filled (.reference "ramp_1")),
      .group Effects.isolate [.shape (.circle ⟨2.0, 2.0⟩ 1.0) Style.white]]]
    (Definitions.empty.insert (.gradient ⟨"ramp_1", .userSpace, 0.0, 0.0, 1.0, 0.0, none, []⟩))

/-- Shapes in a neon halo are stroked as if they had been stroked before. -/
theorem restyled_boxAndCircle :
    (stroke ⟨3.0, 1.0⟩).Restyles ∧ (glow (GlowSettings.standard .neon)).Wraps ∧
      ((stroke ⟨3.0, 1.0⟩).on ⟨.standard, fun _ _ => .error (.other "")⟩ boxAndCircle >>=
          (glow (GlowSettings.standard .neon)).on ⟨.standard, fun _ _ => .error (.other "")⟩) =
        ((glow (GlowSettings.standard .neon)).on ⟨.standard, fun _ _ => .error (.other "")⟩
            boxAndCircle >>=
          (stroke ⟨3.0, 1.0⟩).on ⟨.standard, fun _ _ => .error (.other "")⟩) := by
  obtain ⟨-, -, -, -, commute⟩ := restyled_lastWins ⟨.standard, fun _ _ => .error (.other "")⟩
  exact ⟨trivial, trivial, commute (stroke ⟨3.0, 1.0⟩) (glow (GlowSettings.standard .neon))
    trivial trivial boxAndCircle⟩

end Settings

end Texture
