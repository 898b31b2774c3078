/- Texture/Proofs/Bake/Sum
   digest: The sum of some nodes: one wish for each of them, in order, and pixel by pixel what the
   answers add up to. -/

import Texture.Proofs.Bake.Additive
import Texture.Proofs.Buffer
import Texture.Proofs.Requests

set_option autoImplicit false
set_option relaxedAutoImplicit false

namespace Texture

open Work (Blames Ensures)

namespace Buffer

theorem blend_build {name : String} {f : Pixel → Pixel → Pixel} {n : Nat} {g : Nat → Pixel}
    {above : ByteArray} (size : above.size = n * 4) :
    blend name f (build n g) above = .ok (build n fun i => f (g i) (pixelAt above i)) := by
  rw [blend, if_pos (by rw [Picture.size_build, size]; omega), count_build]
  refine congrArg Except.ok (build_congr ?_)
  intro i less
  rw [pixelAt_build g less]

private theorem blend_ok {name : String} {f : Pixel → Pixel → Pixel} {below above bytes : ByteArray}
    (made : blend name f below above = .ok bytes) : above.size = below.size := by
  unfold blend at made
  split at made
  · rename_i fit
    exact fit.1.symm
  · simp at made

end Buffer

namespace Bake

namespace Layers

variable (layers : Layers)

def call (layer : Svg.Node × Picture) : Request × Picture :=
  (⟨⟨layers.canvas.resolution, layers.definitions, none, [layer.1]⟩, layers.width, layers.height⟩,
    layer.2)

def area : Nat := layers.width * layers.height

end Layers

def total (painted : List (Svg.Node × Picture)) (i : Nat) : Pixel :=
  painted.foldl (fun below layer => layer.1.lay below (Buffer.pixelAt layer.2.bytes i)) Pixel.clear

theorem total_concat (painted : List (Svg.Node × Picture)) (layer : Svg.Node × Picture) (i : Nat) :
    total (painted ++ [layer]) i =
      layer.1.lay (total painted i) (Buffer.pixelAt layer.2.bytes i) := by
  rw [total, List.foldl_append]
  rfl

def totalPicture {width height : Nat} (edges : EdgesInRange width height)
    (painted : List (Svg.Node × Picture)) : Picture :=
  ⟨width, height, Buffer.build (width * height) (total painted), edges, Picture.size_build _ _⟩

namespace Layers

variable {layers : Layers} {rasterizer : Rasterizer}

theorem blend_layer {n : Svg.Node} {f : Nat → Pixel} {above : ByteArray}
    (size : above.size = layers.area * 4) :
    (if n.blend = .plusLighter then Buffer.add (Buffer.build layers.area f) above
      else Buffer.cover (Buffer.build layers.area f) above) =
      .ok (Buffer.build layers.area fun i => n.lay (f i) (Buffer.pixelAt above i)) := by
  unfold Svg.Node.lay
  split
  · exact Buffer.blend_build size
  · exact Buffer.blend_build size

private theorem lay_yields {below bytes : Option ByteArray} {n : Svg.Node} {s t : Session}
    {f : Nat → Pixel} (yields : (layers.lay below n).Yields s bytes t)
    (start : below.getD layers.ground = Buffer.build layers.area f) :
    ∃ p, Asked layers.canvas.rasterizer s [layers.call (n, p)] t ∧
      bytes = some (Buffer.build layers.area fun i => n.lay (f i) (Buffer.pixelAt p.bytes i)) := by
  rw [lay, Work.yields_bind] at yields
  obtain ⟨p, u, painted, laid⟩ := yields
  obtain ⟨sum, made, rfl⟩ := (Work.yields_map _ _ _ _ _).mp laid
  rw [start, Work.yields_ofExcept] at made
  obtain ⟨made, rfl⟩ := made
  refine ⟨p, Asked.of_rasterize painted, ?_⟩
  have size : p.bytes.size = layers.area * 4 := by
    have fit : p.bytes.size = (Buffer.build layers.area f).size := by
      split at made
      · exact Buffer.blend_ok made
      · exact Buffer.blend_ok made
    rw [fit, Picture.size_build]
  rw [blend_layer size] at made
  exact congrArg some (Except.ok.inj made).symm

theorem sum_yields (edges : EdgesInRange layers.width layers.height) {children : List Svg.Node}
    {s t : Session} {p : Picture} (yields : (layers.sum children).Yields s p t) :
    ∃ painted : List (Svg.Node × Picture), painted.map Prod.fst = children ∧
      Asked layers.canvas.rasterizer s (painted.map layers.call) t ∧
      p = totalPicture edges painted := by
  rw [sum, Work.yields_bind] at yields
  obtain ⟨bytes, u, folded, whole⟩ := yields
  rw [Work.yields_ofExcept] at whole
  obtain ⟨whole, rfl⟩ := whole
  obtain ⟨painted, order, asked, same⟩ := folded.foldlM
    (P := fun before bytes u => ∃ painted : List (Svg.Node × Picture),
      painted.map Prod.fst = before ∧
      Asked layers.canvas.rasterizer s (painted.map layers.call) u ∧
      bytes.getD layers.ground = Buffer.build layers.area (total painted))
    ⟨[], rfl, Asked.refl s, rfl⟩ (by
      rintro before n after below v bytes w - ⟨painted, order, asked, same⟩ step
      obtain ⟨p, asked', made⟩ := lay_yields step same
      refine ⟨painted ++ [(n, p)], by rw [List.map_append, order]; rfl, ?_, ?_⟩
      · rw [List.map_append]
        exact asked.append asked'
      · rw [made, Option.getD_some]
        exact Buffer.build_congr fun i _ => (total_concat painted (n, p) i).symm)
  refine ⟨painted, order, asked, ?_⟩
  have complete : (Buffer.build layers.area (total painted)).size =
      layers.width * layers.height * 4 := Picture.size_build _ _
  rw [same, Picture.ofBytes, dif_pos edges, dif_pos complete] at whole
  exact (Except.ok.inj whole).symm

private theorem lay_blames {below : Option ByteArray} (n : Svg.Node) {f : Nat → Pixel}
    (start : below.getD layers.ground = Buffer.build layers.area f) :
    (layers.lay below n).Blames
      (Fulfilled layers.canvas.rasterizer layers.width layers.height) := by
  have made : layers.lay below n = layers.paint n >>= fun p =>
      Work.ofExcept (some <$> if n.blend = .plusLighter then
        Buffer.add (below.getD layers.ground) p.bytes
        else Buffer.cover (below.getD layers.ground) p.bytes) := by
    simp only [lay, Work.map_ofExcept]
  rw [made]
  refine Blames.rasterize _ fun p wide high => ?_
  have size : p.bytes.size = layers.area * 4 := by rw [p.complete, wide, high, area]
  rw [start, blend_layer size]
  exact ⟨_, rfl⟩

theorem sum_blames (edges : EdgesInRange layers.width layers.height) (children : List Svg.Node) :
    (layers.sum children).Blames
      (Fulfilled layers.canvas.rasterizer layers.width layers.height) := by
  let Sound (bytes : Option ByteArray) : Prop :=
    ∃ f, bytes.getD layers.ground = Buffer.build layers.area f
  have step : ∀ below n, Sound below →
      (layers.lay below n).Blames (Fulfilled layers.canvas.rasterizer layers.width layers.height) ∧
        (layers.lay below n).Ensures Sound := by
    rintro below n ⟨f, start⟩
    refine ⟨lay_blames n start, fun s bytes t yields => ?_⟩
    obtain ⟨p, -, rfl⟩ := lay_yields yields start
    exact ⟨_, rfl⟩
  have start : Sound none := ⟨fun _ => Pixel.clear, rfl⟩
  have sound : (children.foldlM layers.lay none).Ensures Sound :=
    Ensures.foldlM (P := fun _ => Sound) start children fun _ n _ below _ kept =>
      (step below n kept).2
  refine (Blames.foldlM step children start).bind sound ?_
  rintro bytes ⟨f, same⟩
  have complete : (bytes.getD layers.ground).size = layers.width * layers.height * 4 := by
    rw [same]
    exact Picture.size_build _ _
  refine Blames.ofExcept (a := ⟨_, _, bytes.getD layers.ground, edges, complete⟩) ?_
  rw [Picture.ofBytes, dif_pos edges, dif_pos complete]

end Layers

end Bake

end Texture
