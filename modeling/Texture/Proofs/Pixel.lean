/- Texture/Proofs/Pixel
   digest: Premultiplied pixels: sums of them are premultiplied, and dividing the colour by the
   opacity and multiplying it again loses nothing. -/

import Mathlib.Tactic.Common
import Texture.Pixel

set_option autoImplicit false
set_option relaxedAutoImplicit false

namespace Texture.Pixel

private theorem scale_unscale {a c : Nat} (low : 0 < a) (high : a < 255) :
    (min 255 ((c * 255 + a / 2) / a) * a + 127) / 255 = min c a := by
  by_cases le : c ≤ a
  · -- The quotient times the opacity misses the dividend by less than the opacity.
    have quotient := Nat.div_add_mod (c * 255 + a / 2) a
    have rest := Nat.mod_lt (c * 255 + a / 2) low
    have bound : (c * 255 + a / 2) / a ≤ 255 := by
      refine Nat.lt_succ_iff.mp ((Nat.div_lt_iff_lt_mul low).mpr ?_)
      omega
    rw [Nat.min_eq_right bound, Nat.min_eq_left le, Nat.mul_comm]
    omega
  · have full : 255 ≤ (c * 255 + a / 2) / a := by
      refine (Nat.le_div_iff_mul_le low).mpr ?_
      omega
    rw [Nat.min_eq_left full, Nat.min_eq_right (by omega)]
    omega

def capped (p : Pixel) : Pixel := p.mapColor fun c => min c p.alpha

private theorem min_of_le {c a : UInt8} (h : c ≤ a) : min c a = c := if_pos h

theorem toNat_min (c a : UInt8) : (min c a).toNat = min c.toNat a.toNat := by
  by_cases le : c ≤ a
  · rw [min_of_le le, Nat.min_eq_left (UInt8.le_iff_toNat_le.mp le)]
  · have other : min c a = a := if_neg le
    have less := UInt8.not_le.mp le
    rw [other, Nat.min_eq_right (Nat.le_of_lt (UInt8.lt_iff_toNat_lt.mp less))]

theorem capped_of_isPremultiplied {p : Pixel} (h : p.IsPremultiplied) : p.capped = p := by
  obtain ⟨red, green, blue⟩ := h
  simp only [capped, mapColor, min_of_le red, min_of_le green, min_of_le blue]

private theorem scaleByte_full (c : UInt8) : scaleByte c.toNat 255 = min c 255 := by
  have small := c.toNat_lt
  have top : (255 : UInt8).toNat = 255 := rfl
  apply UInt8.toNat.inj
  rw [scaleByte, UInt8.toNat_ofNat', toNat_min, top]
  omega

private theorem scaleByte_unscaled {alpha : UInt8} (c : UInt8) (low : 0 < alpha.toNat)
    (high : alpha.toNat < 255) :
    scaleByte (UInt8.ofNat (min 255 ((c.toNat * 255 + alpha.toNat / 2) / alpha.toNat))).toNat
      alpha.toNat = min c alpha := by
  have held := scale_unscale (c := c.toNat) low high
  have small : min 255 ((c.toNat * 255 + alpha.toNat / 2) / alpha.toNat) % 2 ^ 8 =
      min 255 ((c.toNat * 255 + alpha.toNat / 2) / alpha.toNat) :=
    Nat.mod_eq_of_lt (Nat.lt_of_le_of_lt (Nat.min_le_left _ _) (by decide))
  apply UInt8.toNat.inj
  rw [scaleByte, UInt8.toNat_ofNat', UInt8.toNat_ofNat', small, held, toNat_min]
  omega

theorem premultiply_unpremultiply (p : Pixel) : p.unpremultiply.premultiply = p.capped := by
  obtain ⟨red, green, blue, alpha⟩ := p
  by_cases none : alpha = 0
  · subst none
    have zero (c : UInt8) : min c 0 = 0 := by
      apply UInt8.toNat.inj
      rw [toNat_min]
      exact Nat.min_zero _
    rw [unpremultiply, if_pos (Or.inl rfl), premultiply, if_pos rfl]
    simp only [capped, mapColor, zero]
  · by_cases full : alpha = 255
    · subst full
      have top : (255 : UInt8).toNat = 255 := rfl
      rw [unpremultiply, if_pos (Or.inr rfl), premultiply, if_neg none]
      simp only [capped, mapColor, top, scaleByte_full]
    · have low : 0 < alpha.toNat := Nat.pos_of_ne_zero fun zero => none (UInt8.toNat.inj zero)
      have high : alpha.toNat < 255 := by
        have bound := alpha.toNat_lt
        have unlike : alpha.toNat ≠ 255 := fun same => full (UInt8.toNat.inj same)
        omega
      have between : ¬ (alpha = 0 ∨ alpha = 255) := not_or.mpr ⟨none, full⟩
      rw [unpremultiply, if_neg between, premultiply, mapColor, if_neg none]
      simp only [capped, mapColor, scaleByte_unscaled _ low high]

theorem isPremultiplied_clear : clear.IsPremultiplied := by
  unfold IsPremultiplied
  decide

theorem isPremultiplied_full (red green blue : UInt8) :
    (Pixel.mk red green blue 255).IsPremultiplied := by
  have le (c : UInt8) : c ≤ 255 := UInt8.le_iff_toNat_le.mpr (Nat.lt_succ_iff.mp c.toNat_lt)
  exact ⟨le red, le green, le blue⟩

private theorem toNat_addByte (x y : UInt8) :
    (addByte x y).toNat = min 255 (x.toNat + y.toNat) := by
  rw [addByte, UInt8.toNat_ofNat']
  omega

private theorem addByte_le {a b c d : UInt8} (h : a ≤ b) (h' : c ≤ d) :
    addByte a c ≤ addByte b d := by
  rw [UInt8.le_iff_toNat_le] at *
  rw [toNat_addByte, toNat_addByte]
  omega

theorem IsPremultiplied.add {p q : Pixel} (h : p.IsPremultiplied) (h' : q.IsPremultiplied) :
    (p.add q).IsPremultiplied :=
  ⟨addByte_le h.1 h'.1, addByte_le h.2.1 h'.2.1, addByte_le h.2.2 h'.2.2⟩

private theorem scaleByte_le {c d k : Nat} (h : c ≤ d) (hd : d ≤ 255) (hk : k ≤ 255) :
    scaleByte c k ≤ scaleByte d k := by
  have product : c * k ≤ d * k := Nat.mul_le_mul_right k h
  have bound : d * k ≤ 255 * 255 := Nat.mul_le_mul hd hk
  rw [UInt8.le_iff_toNat_le, scaleByte, scaleByte, UInt8.toNat_ofNat', UInt8.toNat_ofNat']
  omega

/-- Painting a premultiplied pixel over another one leaves one: the share of the pixel below that
shows through is rounded alike in its colours and in its opacity. -/
theorem IsPremultiplied.cover {p q : Pixel} (h : p.IsPremultiplied) (h' : q.IsPremultiplied) :
    (p.cover q).IsPremultiplied := by
  have through : ∀ {c d : UInt8}, c ≤ d →
      scaleByte c.toNat (255 - q.alpha.toNat) ≤ scaleByte d.toNat (255 - q.alpha.toNat) := by
    intro c d le
    have small := d.toNat_lt
    exact scaleByte_le (UInt8.le_iff_toNat_le.mp le) (by omega) (by omega)
  obtain ⟨red, green, blue⟩ := h
  obtain ⟨red', green', blue'⟩ := h'
  unfold Pixel.cover
  split
  · exact ⟨red, green, blue⟩
  · exact ⟨addByte_le red' (through red), addByte_le green' (through green),
      addByte_le blue' (through blue)⟩

private theorem toNat_scaleByte_le (c : UInt8) {k : Nat} (h : k ≤ 255) :
    (scaleByte c.toNat k).toNat ≤ k := by
  have small := c.toNat_lt
  have product : c.toNat * k ≤ 255 * k := Nat.mul_le_mul_right k (by omega)
  rw [scaleByte, UInt8.toNat_ofNat']
  omega

theorem isPremultiplied_premultiply (p : Pixel) : p.premultiply.IsPremultiplied := by
  have scaled : ∀ c a : UInt8, scaleByte c.toNat a.toNat ≤ a := by
    intro c a
    rw [UInt8.le_iff_toNat_le]
    exact toNat_scaleByte_le c (Nat.lt_succ_iff.mp a.toNat_lt)
  unfold premultiply
  split
  · rename_i none
    rw [none]
    exact isPremultiplied_clear
  · exact ⟨scaled _ _, scaled _ _, scaled _ _⟩

private theorem addByte_zero (b : UInt8) : addByte b 0 = b := by
  have small := b.toNat_lt
  have zero : (0 : UInt8).toNat = 0 := rfl
  apply UInt8.toNat.inj
  rw [toNat_addByte, zero]
  omega

private theorem addByte_eq_zero {a b : UInt8} : addByte a b = 0 ↔ a = 0 ∧ b = 0 := by
  have zero {c : UInt8} : c = 0 ↔ c.toNat = 0 := UInt8.toNat_inj.symm
  rw [zero, zero, zero, toNat_addByte]
  omega

theorem add_eq_clear {p q : Pixel} : p.add q = clear ↔ p = clear ∧ q = clear := by
  obtain ⟨red, green, blue, alpha⟩ := p
  obtain ⟨red', green', blue', alpha'⟩ := q
  simp only [add, zipWith, clear, Pixel.mk.injEq, addByte_eq_zero]
  constructor
  · rintro ⟨⟨r, r'⟩, ⟨g, g'⟩, ⟨b, b'⟩, a, a'⟩
    exact ⟨⟨r, g, b, a⟩, r', g', b', a'⟩
  · rintro ⟨⟨r, g, b, a⟩, r', g', b', a'⟩
    exact ⟨⟨r, r'⟩, ⟨g, g'⟩, ⟨b, b'⟩, a, a'⟩

theorem cover_full (below : Pixel) (red green blue : UInt8) :
    cover below ⟨red, green, blue, 255⟩ = ⟨red, green, blue, 255⟩ := by
  have nothing (b : UInt8) : scaleByte b.toNat (255 - (255 : UInt8).toNat) = 0 := by
    have top : (255 : UInt8).toNat = 255 := rfl
    rw [scaleByte, top, Nat.sub_self, Nat.mul_zero]
    rfl
  have visible : (255 : UInt8) ≠ 0 := by decide
  rw [cover, if_neg visible]
  simp only [zipWith, nothing, addByte_zero]

theorem cover_clear {p : Pixel} (h : p.IsPremultiplied) : cover clear p = p := by
  obtain ⟨red, green, blue, alpha⟩ := p
  obtain ⟨r, g, b⟩ := h
  by_cases none : alpha = 0
  · subst none
    have zero {c : UInt8} (le : c ≤ 0) : c = 0 := by
      apply UInt8.toNat.inj
      exact Nat.le_zero.mp (UInt8.le_iff_toNat_le.mp le)
    obtain ⟨rfl, rfl, rfl⟩ : red = 0 ∧ green = 0 ∧ blue = 0 := ⟨zero r, zero g, zero b⟩
    rfl
  · have nothing (a : UInt8) : scaleByte (0 : UInt8).toNat (255 - a.toNat) = 0 := by
      have zero : (0 : UInt8).toNat = 0 := rfl
      rw [scaleByte, zero, Nat.zero_mul]
      rfl
    rw [cover, if_neg none]
    simp only [zipWith, clear, nothing, addByte_zero]

theorem clear_add (p : Pixel) : clear.add p = p := by
  have zero (b : UInt8) : addByte 0 b = b := by
    have small := b.toNat_lt
    have none : (0 : UInt8).toNat = 0 := rfl
    apply UInt8.toNat.inj
    rw [toNat_addByte, none]
    omega
  simp only [add, zipWith, clear, zero]

/-! Pixels byte by byte. -/

/-- A byte of a pixel: its red, its green, its blue, and then its opacity. -/
def byte (p : Pixel) : Nat → UInt8
  | 0 => p.red
  | 1 => p.green
  | 2 => p.blue
  | _ => p.alpha

theorem byte_clear (k : Nat) : clear.byte k = 0 := by
  unfold byte
  split <;> rfl

private theorem byte_zipWith (f : UInt8 → UInt8 → UInt8) (p q : Pixel) (k : Nat) :
    (zipWith f p q).byte k = f (p.byte k) (q.byte k) := by
  unfold byte
  split <;> rfl

private theorem IsPremultiplied.byte_le {p : Pixel} (h : p.IsPremultiplied) (k : Nat) :
    p.byte k ≤ p.alpha := by
  unfold byte
  split
  · exact h.1
  · exact h.2.1
  · exact h.2.2
  · exact UInt8.le_refl _

theorem toNat_byte_add (p q : Pixel) (k : Nat) :
    ((p.add q).byte k).toNat = min 255 ((p.byte k).toNat + (q.byte k).toNat) := by
  rw [add, byte_zipWith, toNat_addByte]

theorem byte_add_scaleByte_le {q : Pixel} (h : q.IsPremultiplied) (c : UInt8) (k : Nat) :
    (q.byte k).toNat + (scaleByte c.toNat (255 - q.alpha.toNat)).toNat ≤ 255 := by
  have own := UInt8.le_iff_toNat_le.mp (h.byte_le k)
  have through := toNat_scaleByte_le c (Nat.sub_le 255 q.alpha.toNat)
  have small := q.alpha.toNat_lt
  omega

/-- What is painted over a pixel is added to the share of it that shows through, exactly. This is so
where nothing is painted, too, though no sum is made there. -/
theorem toNat_byte_cover {q : Pixel} (h : q.IsPremultiplied) (p : Pixel) (k : Nat) :
    ((cover p q).byte k).toNat =
      (q.byte k).toNat + (scaleByte (p.byte k).toNat (255 - q.alpha.toNat)).toNat := by
  have bound := byte_add_scaleByte_le h (p.byte k) k
  by_cases none : q.alpha = 0
  · have zero : q.alpha.toNat = 0 := by rw [none]; rfl
    have own := UInt8.le_iff_toNat_le.mp (h.byte_le k)
    have small := (p.byte k).toNat_lt
    rw [cover, if_pos none, scaleByte, UInt8.toNat_ofNat', zero]
    omega
  · rw [cover, if_neg none, byte_zipWith, toNat_addByte]
    omega

end Texture.Pixel
