/- Texture/Proofs/Picture/Trip
   digest: The way of a picture into its address and back again: sixteen bits are enough for it, the
   first time holds colours at their opacity, and no further time changes anything. -/

import Texture.Proofs.Picture.Premultiplied

set_option autoImplicit false
set_option relaxedAutoImplicit false

namespace Texture

namespace Pixel

/-- A number that sixteen bits hold. -/
def word? (n : Nat) : Option Nat := if n < 65536 then some n else none

/-- The product of two bytes as fractions of 255, with all numbers on the way held in words. -/
def scaleWords? (c alpha : UInt8) : Option UInt8 := do
  let product ← word? (c.toNat * alpha.toNat)
  let sum ← word? (product + 127)
  return UInt8.ofNat (sum / 255)

def unscaleWords? (c alpha : UInt8) : Option UInt8 := do
  let product ← word? (c.toNat * 255)
  let sum ← word? (product + alpha.toNat / 2)
  return UInt8.ofNat (min 255 (sum / alpha.toNat))

def mapColor? (f : UInt8 → Option UInt8) (p : Pixel) : Option Pixel := do
  return ⟨← f p.red, ← f p.green, ← f p.blue, p.alpha⟩

def premultiplyWords? (p : Pixel) : Option Pixel :=
  if p.alpha = 0 then some ⟨0, 0, 0, p.alpha⟩ else p.mapColor? fun c => scaleWords? c p.alpha

def unpremultiplyWords? (p : Pixel) : Option Pixel :=
  if p.alpha = 0 ∨ p.alpha = 255 then some p else p.mapColor? fun c => unscaleWords? c p.alpha

private theorem word?_of_lt {n : Nat} (h : n < 65536) : word? n = some n := if_pos h

private theorem scaleWords?_eq (c alpha : UInt8) :
    scaleWords? c alpha = some (scaleByte c.toNat alpha.toNat) := by
  have product : c.toNat * alpha.toNat ≤ 255 * 255 :=
    Nat.mul_le_mul (Nat.lt_succ_iff.mp c.toNat_lt) (Nat.lt_succ_iff.mp alpha.toNat_lt)
  rw [scaleWords?, word?_of_lt (by omega), Option.bind_eq_bind, Option.bind_some,
    word?_of_lt (by omega)]
  rfl

private theorem unscaleWords?_eq (c alpha : UInt8) : unscaleWords? c alpha =
    some (UInt8.ofNat (min 255 ((c.toNat * 255 + alpha.toNat / 2) / alpha.toNat))) := by
  have color := c.toNat_lt
  have opacity := alpha.toNat_lt
  rw [unscaleWords?, word?_of_lt (by omega), Option.bind_eq_bind, Option.bind_some,
    word?_of_lt (by omega)]
  rfl

private theorem premultiplyWords?_eq (p : Pixel) : p.premultiplyWords? = some p.premultiply := by
  unfold premultiplyWords? premultiply
  split
  · rfl
  · simp only [mapColor?, scaleWords?_eq]
    rfl

private theorem unpremultiplyWords?_eq (p : Pixel) :
    p.unpremultiplyWords? = some p.unpremultiply := by
  unfold unpremultiplyWords? unpremultiply
  split
  · rfl
  · simp only [mapColor?, unscaleWords?_eq]
    rfl

private theorem capped_isPremultiplied (p : Pixel) : p.capped.IsPremultiplied := by
  have le (c : UInt8) : min c p.alpha ≤ p.alpha := by
    rw [UInt8.le_iff_toNat_le, toNat_min]
    exact Nat.min_le_right _ _
  exact ⟨le p.red, le p.green, le p.blue⟩

end Pixel

namespace Picture

/-- The picture that comes out when a picture goes into its address and back so many times. -/
def afterTrips : Nat → Picture → Except Fault Picture
  | 0, p => .ok p
  | n + 1, p => do afterTrips n (← ofPayload p.toAddress)

variable (p : Picture)

private theorem pixel?_capped (x y : Nat) :
    p.capped.pixel? x y = (p.pixel? x y).map Pixel.capped := by
  have size : p.capped.width = p.width ∧ p.capped.height = p.height := ⟨rfl, rfl⟩
  unfold pixel?
  rw [size.1, size.2]
  split
  · rename_i inside
    have less : y * p.width + x < p.width * p.height := by
      calc
        y * p.width + x < y * p.width + p.width := Nat.add_lt_add_left inside.1 _
        _ = p.width * (y + 1) := by rw [Nat.mul_comm p.width, Nat.succ_mul]
        _ ≤ p.width * p.height := Nat.mul_le_mul_left _ inside.2
    exact congrArg some (Buffer.pixelAt_map _ p.complete less)
  · rfl

private theorem capped_isPremultiplied : p.capped.IsPremultiplied := by
  intro i inside
  have here : Buffer.pixelAt p.capped.bytes i = (Buffer.pixelAt p.bytes i).capped :=
    Buffer.pixelAt_map _ p.complete inside
  rw [here]
  exact Pixel.capped_isPremultiplied _

private theorem afterTrips_of_isPremultiplied {q : Picture} (h : q.IsPremultiplied) (n : Nat) :
    afterTrips n q = .ok q := by
  induction n with
  | zero => rfl
  | succ n ih =>
    rw [afterTrips, ofPayload_toAddress, capped_of_isPremultiplied h]
    exact ih

private theorem afterTrips_succ (n : Nat) : afterTrips (n + 1) p = .ok p.capped := by
  rw [afterTrips, ofPayload_toAddress]
  exact afterTrips_of_isPremultiplied p.capped_isPremultiplied n

/-- A picture of whatever bytes is read again from its address, of the same size, with the same
opacity everywhere and each colour byte held at it. A premultiplied picture comes back as it was,
any further trip changes nothing, and no number on the way there or back needs more than sixteen
bits. -/
theorem toAddress_lossless {width height : Nat} {bytes : ByteArray}
    (made : ofBytes width height bytes = .ok p) :
    ∃ q, ofPayload p.toAddress = .ok q ∧ q.width = width ∧ q.height = height ∧
      (∀ x y, q.pixel? x y = (p.pixel? x y).map fun c =>
        ⟨min c.red c.alpha, min c.green c.alpha, min c.blue c.alpha, c.alpha⟩) ∧
      (p.IsPremultiplied → q = p) ∧
      (∀ n, afterTrips (n + 1) p = .ok q) ∧
      (∀ c : Pixel, c.unpremultiplyWords? = some c.unpremultiply ∧
        c.premultiplyWords? = some c.premultiply) := by
  obtain ⟨wide, high, -⟩ := ofBytes_ok made
  refine ⟨p.capped, ofPayload_toAddress p, wide, high, fun x y => pixel?_capped p x y,
    fun premultiplied => capped_of_isPremultiplied premultiplied, fun n => afterTrips_succ p n, ?_⟩
  exact fun c => ⟨c.unpremultiplyWords?_eq, c.premultiplyWords?_eq⟩

/-- Two pixels, of which the first has more red than its opacity allows. -/
def overlit : Picture :=
  ⟨2, 1, ⟨#[200, 10, 100, 100, 7, 8, 9, 0]⟩, by decide, by decide⟩

theorem overlit_held : ofBytes 2 1 ⟨#[200, 10, 100, 100, 7, 8, 9, 0]⟩ = .ok overlit ∧
    ∃ q, ofPayload overlit.toAddress = .ok q ∧ q.pixel? 0 0 = some ⟨100, 10, 100, 100⟩ ∧
      q.pixel? 1 0 = some Pixel.clear ∧ afterTrips 7 overlit = .ok q := by
  have made : ofBytes 2 1 ⟨#[200, 10, 100, 100, 7, 8, 9, 0]⟩ = .ok overlit := ofBytes_self overlit
  obtain ⟨q, back, -, -, pixels, -, trips, -⟩ := toAddress_lossless overlit made
  refine ⟨made, q, back, ?_, ?_, trips 6⟩
  · rw [pixels]
    decide
  · rw [pixels]
    decide

end Picture

end Texture
