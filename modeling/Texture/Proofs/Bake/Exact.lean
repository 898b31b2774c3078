/- Texture/Proofs/Bake/Exact
   digest: Documents painted by an exact rasterizer: the children of an additive group add up pixel
   by pixel, and what the canvas shows of the sum stands for them. -/

import Texture.Proofs.Bake.Sum
import Texture.Proofs.Svg.Sheet

set_option autoImplicit false
set_option relaxedAutoImplicit false

namespace Texture

open Svg (Definitions Document Effects)

namespace Work

variable {α β : Type} {x : Work α} {f : α → Work β} {a : α} {b : β}

/-- In every session work succeeds with the same value. -/
def Gives (x : Work α) (a : α) : Prop := ∀ s, ∃ t, x.Yields s a t

private theorem Gives.pure (a : α) : (Pure.pure a : Work α).Gives a := fun s => ⟨s, rfl⟩

theorem Gives.bind (hx : x.Gives a) (hf : (f a).Gives b) : (x >>= f).Gives b := by
  intro s
  obtain ⟨t, first⟩ := hx s
  obtain ⟨u, second⟩ := hf t
  exact ⟨u, (yields_bind x f b s u).mpr ⟨a, t, first, second⟩⟩

private theorem Gives.ofExcept {x : Except Fault α} (h : x = .ok a) : (Work.ofExcept x).Gives a :=
  fun s => ⟨s, (yields_ofExcept x a s s).mpr ⟨h, rfl⟩⟩

end Work

namespace Svg.Node

def laid (n : Node) (below above : Sheet) : Sheet := fun x y => n.lay (below x y) (above x y)

/-- What is seen when some nodes are laid on a sheet, one after the other. -/
def layOver? (below : Sheet) : List Node → Option Sheet
  | [] => some below
  | n :: ns => do layOver? (n.laid below (← n.sheet?)) ns

end Svg.Node

namespace Bake

variable {rasterizer : Rasterizer} {r : Resolution} {ds : Definitions} {ns : List Svg.Node}
  {s : Sheet}

private theorem rasterize_gives (exact : rasterizer.IsExact) (doc : Document)
    (shows : doc.sheet? = some s) :
    (Work.rasterize rasterizer ⟨doc, doc.resolution.pixels, doc.resolution.pixels⟩).Gives
      (s.picture doc.resolution) := by
  intro session
  have answered := Work.after_rasterize rasterizer
    ⟨doc, doc.resolution.pixels, doc.resolution.pixels⟩ session
  rw [exact _ _ _ shows] at answered
  exact ⟨_, answered⟩

namespace Layers

variable (rasterizer) (r) (ds)

def whole : Layers := ⟨⟨r, rasterizer⟩, ds, r.pixels, r.pixels⟩

variable {rasterizer} {r} {ds}

private theorem lay_gives (exact : rasterizer.IsExact) {n : Svg.Node} {below : Sheet}
    {bytes : Option ByteArray} (shows : n.sheet? = some s)
    (start : bytes.getD (whole rasterizer r ds).ground = (below.picture r).bytes) :
    ((whole rasterizer r ds).lay bytes n).Gives (some ((n.laid below s).picture r).bytes) := by
  have painted : ((whole rasterizer r ds).paint n).Gives (s.picture r) :=
    rasterize_gives exact ⟨r, ds, none, [n]⟩ shows
  refine painted.bind ?_
  rw [Work.map_ofExcept]
  refine Work.Gives.ofExcept ?_
  have size : (s.picture r).bytes.size = (whole rasterizer r ds).area * 4 := (s.picture r).complete
  have sum : (below.picture r).bytes = Buffer.build (whole rasterizer r ds).area
      fun i => below (i % r.pixels : ℕ) (i / r.pixels : ℕ) := rfl
  rw [start, sum, blend_layer size]
  refine congrArg (fun bytes => Except.ok (some bytes)) (Buffer.build_congr fun i less => ?_)
  have pixel : Buffer.pixelAt (s.picture r).bytes i = s (i % r.pixels : ℕ) (i / r.pixels : ℕ) :=
    Buffer.pixelAt_build _ less
  rw [pixel]
  rfl

private theorem sum_gives (exact : rasterizer.IsExact)
    (shows : Svg.Node.layOver? Sheet.blank ns = some s) :
    ((whole rasterizer r ds).sum ns).Gives (s.picture r) := by
  -- The sum so far is always what the canvas shows of a sheet.
  have folded : ∀ (ns : List Svg.Node) (below : Sheet) (bytes : Option ByteArray),
      Svg.Node.layOver? below ns = some s →
      bytes.getD (whole rasterizer r ds).ground = (below.picture r).bytes →
      ∃ sum, (ns.foldlM (whole rasterizer r ds).lay bytes).Gives sum ∧
        sum.getD (whole rasterizer r ds).ground = (s.picture r).bytes := by
    intro ns
    induction ns with
    | nil =>
      intro below bytes same start
      obtain rfl : below = s := by simpa [Svg.Node.layOver?] using same
      exact ⟨bytes, Work.Gives.pure bytes, start⟩
    | cons n ns ih =>
      intro below bytes same start
      obtain ⟨above, shown, rest⟩ := Option.bind_eq_some_iff.mp same
      obtain ⟨sum, given, last⟩ := ih _ _ rest (Option.getD_some)
      rw [List.foldlM_cons]
      exact ⟨sum, (lay_gives exact shown start).bind given, last⟩
  obtain ⟨sum, given, last⟩ := folded ns Sheet.blank none shows rfl
  refine given.bind (Work.Gives.ofExcept ?_)
  rw [last]
  exact Picture.ofBytes_self (s.picture r)

mutual

private theorem flatten_of_summed (layers : Layers) {n : Svg.Node} (summed : Svg.Node.Summed [n]) :
    (layers.flatten n).Gives n := by
  cases n with
  | shape geometry style => exact Work.Gives.pure _
  | group effects children =>
    obtain ⟨⟨plain, below⟩, -⟩ := summed
    rw [flatten]
    refine (flattenAll_of_summed layers below).bind ?_
    rw [if_neg (by rw [plain]; exact Bool.false_ne_true)]
    exact Work.Gives.pure _
  | image box address rendering => exact Work.Gives.pure _

private theorem flattenAll_of_summed (layers : Layers) {ns : List Svg.Node}
    (summed : Svg.Node.Summed ns) : (layers.flattenAll ns).Gives ns := by
  cases ns with
  | nil => exact Work.Gives.pure _
  | cons n ns =>
    rw [flattenAll]
    refine (flatten_of_summed layers (n := n) ⟨summed.1, trivial⟩).bind ?_
    exact (flattenAll_of_summed layers summed.2).bind (Work.Gives.pure _)

end

/-- An image of the sum stands for the children of an additive group. -/
theorem flatten_additive (exact : rasterizer.IsExact) {effects : Effects}
    (additive : Svg.Node.isAdditive effects ns = true) (summed : Svg.Node.Summed ns)
    (shows : Svg.Node.layOver? Sheet.blank ns = some s) :
    ((whole rasterizer r ds).flatten (.group effects ns)).Gives
      (.group effects [Artifact.embed (s.picture r) r .smooth]) := by
  rw [flatten]
  refine (flattenAll_of_summed _ summed).bind ?_
  rw [if_pos additive]
  exact (sum_gives exact shows).bind (Work.Gives.pure _)

theorem flatten_single {layers : Layers} {effects : Effects} {n m : Svg.Node}
    (flat : (layers.flatten n).Gives m) (plain : effects.isolated = false) :
    (layers.flatten (.group effects [n])).Gives (.group effects [m]) := by
  have all : (layers.flattenAll [n]).Gives [m] := flat.bind (Work.Gives.pure _)
  have kept : Svg.Node.isAdditive effects [m] = false := by rw [Svg.Node.isAdditive, plain]; rfl
  rw [flatten]
  refine all.bind ?_
  rw [kept, if_neg Bool.false_ne_true]
  exact Work.Gives.pure _

end Layers

theorem document_gives (exact : rasterizer.IsExact) {n m : Svg.Node}
    (flat : ((Layers.whole rasterizer r Definitions.empty).flatten n).Gives m)
    (shows : m.sheet? = some s) :
    (document rasterizer r.pixels r.pixels ⟨r, Definitions.empty, none, [n]⟩).Gives
      (s.picture r) := by
  have content : ((Layers.whole rasterizer r Definitions.empty).flattenAll [n]).Gives [m] :=
    flat.bind (Work.Gives.pure _)
  have flattened : (flatten rasterizer r.pixels r.pixels ⟨r, Definitions.empty, none, [n]⟩).Gives
      ⟨r, Definitions.empty, none, [m]⟩ :=
    (Work.Gives.pure []).bind (content.bind (Work.Gives.pure _))
  exact flattened.bind (rasterize_gives exact ⟨r, Definitions.empty, none, [m]⟩ shows)

end Bake

end Texture
