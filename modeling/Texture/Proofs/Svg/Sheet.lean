/- Texture/Proofs/Svg/Sheet
   digest: The infinite plane as pixels, and what parts of documents on whole pixels show there:
   solid boxes, bitmaps pixel for pixel, and whole shifts, one painted over the other. -/

import Texture.Bake
import Texture.Proofs.Number.Binary
import Texture.Proofs.Picture.Payload

set_option autoImplicit false
set_option relaxedAutoImplicit false

namespace Texture

namespace Number

def whole? (x : Float) : Option ℤ :=
  if Binary.isFinite x = true ∧ (exactValue x).den = 1 then some (exactValue x).num else none

theorem Exact.whole?_eq {x : Float} {n : ℤ} (h : Exact x n) : whole? x = some n := by
  rw [whole?, h.value, if_pos ⟨h.finite, Rat.den_intCast n⟩, Rat.num_intCast]

theorem exact_zero : Exact 0.0 (0 : ℤ) := ⟨by decide, by rw [exactValue_zero, Int.cast_zero]⟩

theorem exact_one : Exact 1.0 (1 : ℤ) := ⟨by decide, by rw [exactValue_one, Int.cast_one]⟩

end Number

def Resolution.Shows (r : Resolution) (x y : ℤ) : Prop :=
  0 ≤ x ∧ x < r.pixels ∧ 0 ≤ y ∧ y < r.pixels

instance (r : Resolution) (x y : ℤ) : Decidable (r.Shows x y) := by
  unfold Resolution.Shows
  infer_instance

/-- Pixels in all columns and rows of the plane. -/
abbrev Sheet := ℤ → ℤ → Pixel

namespace Sheet

def blank : Sheet := fun _ _ => Pixel.clear

def cover (below above : Sheet) : Sheet := fun x y => Pixel.cover (below x y) (above x y)

def add (s t : Sheet) : Sheet := fun x y => Pixel.add (s x y) (t x y)

def shift (dx dy : ℤ) (s : Sheet) : Sheet := fun x y => s (x - dx) (y - dy)

def clip (r : Resolution) (s : Sheet) : Sheet :=
  fun x y => if r.Shows x y then s x y else Pixel.clear

def picture (r : Resolution) (s : Sheet) : Picture :=
  .ofPixels r.pixels r.pixels ⟨⟨r.positive, r.bounded⟩, r.positive, r.bounded⟩ fun x y => s x y

def IsPremultiplied (s : Sheet) : Prop := ∀ x y, (s x y).IsPremultiplied

variable {s t : Sheet} {r : Resolution}

theorem IsPremultiplied.shift (h : s.IsPremultiplied) (dx dy : ℤ) :
    (s.shift dx dy).IsPremultiplied := fun _ _ => h _ _

theorem IsPremultiplied.clip (h : s.IsPremultiplied) (r : Resolution) :
    (s.clip r).IsPremultiplied := by
  intro x y
  by_cases shown : r.Shows x y
  · rw [Sheet.clip, if_pos shown]
    exact h x y
  · rw [Sheet.clip, if_neg shown]
    exact Pixel.isPremultiplied_clear

theorem IsPremultiplied.add (h : s.IsPremultiplied) (h' : t.IsPremultiplied) :
    (s.add t).IsPremultiplied := fun x y => (h x y).add (h' x y)

theorem shift_zero (s : Sheet) : s.shift 0 0 = s := by
  funext x y
  rw [shift, Int.sub_zero, Int.sub_zero]

theorem blank_cover (h : s.IsPremultiplied) : blank.cover s = s := by
  funext x y
  exact Pixel.cover_clear (h x y)

private theorem pixelAt_picture (s : Sheet) {x y : ℤ} (shown : r.Shows x y) :
    Buffer.pixelAt (s.picture r).bytes (y.toNat * r.pixels + x.toNat) = s x y := by
  obtain ⟨left, right, top, bottom⟩ := shown
  have column : x.toNat < r.pixels := by omega
  have row : y.toNat < r.pixels := by omega
  rw [picture, Picture.pixelAt_ofPixels _ _ column row, Int.toNat_of_nonneg left,
    Int.toNat_of_nonneg top]

theorem pixel?_picture (s : Sheet) {x y : Nat} (shown : r.Shows x y) :
    (s.picture r).pixel? x y = some (s x y) := by
  obtain ⟨-, right, -, bottom⟩ := shown
  have inside : x < (s.picture r).width ∧ y < (s.picture r).height :=
    ⟨Int.ofNat_lt.mp right, Int.ofNat_lt.mp bottom⟩
  rw [Picture.pixel?, if_pos inside]
  exact congrArg some (Picture.pixelAt_ofPixels _ _ inside.1 inside.2)

private theorem picture_congr (h : ∀ x y, r.Shows x y → s x y = t x y) :
    s.picture r = t.picture r := by
  have bytes : (s.picture r).bytes = (t.picture r).bytes := by
    refine Buffer.build_congr fun i less => h _ _ ?_
    have column := Nat.mod_lt i r.positive
    have row : i / r.pixels < r.pixels := Nat.div_lt_of_lt_mul less
    exact ⟨Int.natCast_nonneg _, Int.ofNat_lt.mpr column, Int.natCast_nonneg _,
      Int.ofNat_lt.mpr row⟩
  simp only [picture, Picture.ofPixels] at bytes ⊢
  simp only [bytes]

private theorem picture_eq_iff :
    s.picture r = t.picture r ↔ ∀ x y, r.Shows x y → s x y = t x y := by
  refine ⟨fun same x y shown => ?_, picture_congr⟩
  rw [← pixelAt_picture s shown, same, pixelAt_picture t shown]

theorem picture_clip : (s.clip r).picture r = s.picture r := by
  refine picture_congr fun x y shown => ?_
  rw [clip, if_pos shown]

/-- Clipping a sheet before it is moved loses what is moved onto the canvas from beyond it. -/
theorem picture_shift_clip_eq_iff {dx dy : ℤ} :
    ((s.clip r).shift dx dy).picture r = (s.shift dx dy).picture r ↔
      ∀ x y, r.Shows x y → s (x - dx) (y - dy) ≠ Pixel.clear → r.Shows (x - dx) (y - dy) := by
  rw [picture_eq_iff]
  refine forall₂_congr fun x y => forall_congr' fun _ => ?_
  rw [shift, shift, clip]
  by_cases shown : r.Shows (x - dx) (y - dy)
  · rw [if_pos shown]
    exact ⟨fun _ _ => shown, fun _ => rfl⟩
  · rw [if_neg shown]
    exact ⟨fun same some => absurd same.symm some, fun none =>
      (Decidable.not_not.mp fun some => shown (none some)).symm⟩

private theorem picture_isPremultiplied (h : s.IsPremultiplied) :
    (s.picture r).IsPremultiplied := by
  intro i less
  have inside : i < r.pixels * r.pixels := less
  rw [picture, Picture.ofPixels, Buffer.pixelAt_build _ inside]
  exact h _ _

end Sheet

structure Frame where
  left : ℤ
  top : ℤ
  right : ℤ
  bottom : ℤ

namespace Frame

def Holds (f : Frame) (x y : ℤ) : Prop := f.left ≤ x ∧ x < f.right ∧ f.top ≤ y ∧ y < f.bottom

instance (f : Frame) (x y : ℤ) : Decidable (f.Holds x y) := by
  unfold Holds
  infer_instance

/-- The frame of a box whose corners lie between pixels. -/
def ofBox? (b : Plane.Box) : Option Frame := do
  return ⟨← Number.whole? b.left, ← Number.whole? b.top, ← Number.whole? b.right,
    ← Number.whole? b.bottom⟩

def fill (f : Frame) (c : Color) : Sheet :=
  fun x y => if f.Holds x y then ⟨c.red, c.green, c.blue, 255⟩ else Pixel.clear

/-- A picture in a frame, its first pixel in the corner of the frame. -/
def image (f : Frame) (p : Picture) : Sheet := fun x y =>
  if f.Holds x y then
    Buffer.pixelAt p.bytes ((y - f.top).toNat * p.width + (x - f.left).toNat)
  else Pixel.clear

def canvas (r : Resolution) : Frame := ⟨0, 0, r.pixels, r.pixels⟩

private theorem ofBox?_square (r : Resolution) :
    ofBox? (Plane.Box.square r.edge) = some (canvas r) := by
  have small : r.pixels < 2 * Number.Binary.fractionUnit :=
    Nat.lt_of_le_of_lt r.bounded (by decide)
  have edge : Number.Exact r.edge (r.pixels : ℤ) := by
    have exact := (Number.exact_ofNat r.positive small).1
    exact ⟨exact.finite, by rw [Resolution.edge, exact.value, Int.cast_natCast]⟩
  simp only [ofBox?, Plane.Box.square, edge.whole?_eq, Number.exact_zero.whole?_eq]
  rfl

private theorem canvas_image (r : Resolution) (s : Sheet) :
    (canvas r).image (s.picture r) = s.clip r := by
  funext x y
  have same : (canvas r).Holds x y ↔ r.Shows x y := Iff.rfl
  by_cases shown : r.Shows x y
  · have pixel := Sheet.pixelAt_picture s shown
    rw [image, Sheet.clip, if_pos shown, if_pos (same.mpr shown)]
    simp only [canvas, Int.sub_zero]
    exact pixel
  · rw [image, Sheet.clip, if_neg shown, if_neg (fun holds => shown (same.mp holds))]

end Frame

namespace Svg

def Style.solid? : Style → Option Color
  | ⟨.color c, .none, .none, .none, .none⟩ => some c
  | _ => none

def shift? (m : Plane.Affine) : Option (ℤ × ℤ) := do
  let linear := (← Number.whole? m.a, ← Number.whole? m.b, ← Number.whole? m.c, ← Number.whole? m.d)
  if linear = (1, 0, 0, 1) then return (← Number.whole? m.e, ← Number.whole? m.f) else none

/-- The shift by whole pixels of a group to which nothing else is done. -/
def Effects.shift? : Effects → Option (ℤ × ℤ)
  | ⟨.none, .none, .none, .none, _, _⟩ => some (0, 0)
  | ⟨some m, .none, .none, .none, _, _⟩ => Svg.shift? m
  | _ => .none

namespace Node

mutual

/-- What a node shows by itself, if it is made of solid boxes, bitmaps and shifts on whole
pixels. -/
def sheet? : Node → Option Sheet
  | .shape (.box b) style => do return (← Frame.ofBox? b).fill (← style.solid?)
  | .shape _ _ => none
  | .image b address _ => do
    let f ← Frame.ofBox? b
    let p ← (Picture.ofPayload address).toOption
    if f.right - f.left = p.width ∧ f.bottom - f.top = p.height then return f.image p else none
  | .group effects children => do
    let (dx, dy) ← effects.shift?
    return (← paintOver? Sheet.blank children).shift dx dy

def paintOver? (below : Sheet) : List Node → Option Sheet
  | [] => some below
  | n :: ns => do
    let above ← sheet? n
    if n.blend = .normal then paintOver? (below.cover above) ns else none

end

variable {n : Node} {ns : List Node} {s : Sheet}

theorem paintOver?_single (normal : n.blend = .normal) (shows : n.sheet? = some s)
    (premultiplied : s.IsPremultiplied) : paintOver? Sheet.blank [n] = some s := by
  simp only [paintOver?, shows, normal, if_true, Option.bind_eq_bind, Option.bind_some,
    Sheet.blank_cover premultiplied]

theorem sheet?_group {effects : Effects} {dx dy : ℤ} (moves : effects.shift? = some (dx, dy))
    (shows : paintOver? Sheet.blank ns = some s) :
    (Node.group effects ns).sheet? = some (s.shift dx dy) := by
  simp only [sheet?, moves, shows, Option.bind_eq_bind, Option.bind_some, Option.pure_def]

private theorem sheet?_embed (r : Resolution) (rendering : Rendering)
    (premultiplied : s.IsPremultiplied) :
    (Artifact.embed (s.picture r) r rendering).sheet? = some (s.clip r) := by
  have read : Picture.ofPayload (s.picture r).toAddress = .ok (s.picture r) := by
    rw [Picture.ofPayload_toAddress,
      Picture.capped_of_isPremultiplied (Sheet.picture_isPremultiplied premultiplied)]
  have fits : (Frame.canvas r).right - (Frame.canvas r).left = (s.picture r).width ∧
      (Frame.canvas r).bottom - (Frame.canvas r).top = (s.picture r).height :=
    ⟨Int.sub_zero _, Int.sub_zero _⟩
  simp only [Artifact.embed, sheet?, Frame.ofBox?_square, read, Except.toOption, fits, and_self,
    if_true, Option.bind_eq_bind, Option.bind_some, Option.pure_def, Frame.canvas_image]

theorem sheet?_isolated (r : Resolution) (rendering : Rendering)
    (premultiplied : s.IsPremultiplied) :
    (Node.group Effects.isolate [Artifact.embed (s.picture r) r rendering]).sheet? =
      some (s.clip r) := by
  have unmoved : Effects.isolate.shift? = some (0, 0) := rfl
  have image := sheet?_embed r rendering premultiplied
  rw [sheet?_group unmoved (paintOver?_single rfl image (premultiplied.clip r)), Sheet.shift_zero]

end Node

theorem shift?_translate {v : Plane.Point} {dx dy : ℤ} (right : Number.Exact v.x dx)
    (down : Number.Exact v.y dy) : shift? (Plane.Affine.translate v) = some (dx, dy) := by
  simp only [shift?, Plane.Affine.translate, Number.exact_one.whole?_eq,
    Number.exact_zero.whole?_eq, right.whole?_eq, down.whole?_eq, Option.bind_eq_bind,
    Option.bind_some, if_true, Option.pure_def]

/-- What a document without a background shows on the plane. Below a single node lies nothing that
it could blend with. -/
def Document.sheet? (doc : Document) : Option Sheet :=
  match doc.background, doc.content with
  | none, [n] => n.sheet?
  | none, ns => Node.paintOver? Sheet.blank ns
  | some _, _ => none

end Svg

/-- A rasterizer that paints documents on whole pixels exactly, and clips at the canvas only. -/
def Rasterizer.IsExact (rasterizer : Rasterizer) : Prop :=
  ∀ earlier (doc : Svg.Document) sheet, doc.sheet? = some sheet →
    rasterizer earlier ⟨doc, doc.resolution.pixels, doc.resolution.pixels⟩ =
      .ok (sheet.picture doc.resolution)

/-- A rasterizer that paints documents on whole pixels exactly and refuses all others. -/
def Rasterizer.exact : Rasterizer := fun _ request =>
  match request.document.sheet? with
  | some sheet => .ok (sheet.picture request.document.resolution)
  | none => .error (.rasterization "not on whole pixels")

theorem Rasterizer.exact_isExact : Rasterizer.exact.IsExact := by
  intro earlier doc sheet shows
  simp only [Rasterizer.exact, shows]

end Texture
