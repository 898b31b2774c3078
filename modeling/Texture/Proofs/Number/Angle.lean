/- Texture/Proofs/Number/Angle
   digest: Sine and cosine stay within one, and so does the tangent of small angles within four. -/

import Texture.Number.Angle
import Texture.Proofs.Number.Size

set_option autoImplicit false
set_option relaxedAutoImplicit false

namespace Texture.Number

namespace Angle

private theorem taylor_mem {square : Nat} (small : square ≤ one) (fuel : Nat) {k : Nat}
    (first : 0 < k)
    (term : Nat) : 0 ≤ taylor square fuel k term ∧ taylor square fuel k term ≤ term := by
  induction fuel generalizing k term with
  | zero => simp [taylor]
  | succ fuel ih =>
    have next : term * square / one / (k * (k + 1)) ≤ term := by
      refine (Nat.div_le_self _ _).trans (Nat.div_le_of_le_mul ?_)
      rw [Nat.mul_comm]
      exact Nat.mul_le_mul_right _ small
    have rest := ih (by omega : 0 < k + 2) (term * square / one / (k * (k + 1)))
    rw [taylor]
    omega

private theorem le_taylor {square : Nat} (small : square ≤ one) (fuel : Nat) {k : Nat}
    (first : 0 < k) (term : Nat) :
    (term : Int) - (term / (k * (k + 1)) : Nat) ≤ taylor square (fuel + 1) k term := by
  have next : term * square / one / (k * (k + 1)) ≤ term / (k * (k + 1)) := by
    refine Nat.div_le_div_right (Nat.div_le_of_le_mul ?_)
    rw [Nat.mul_comm]
    exact Nat.mul_le_mul_right _ small
  have rest := taylor_mem small fuel (by omega : 0 < k + 2) (term * square / one / (k * (k + 1)))
  rw [taylor]
  omega

private theorem series_le {r : Nat} (small : r ≤ one) :
    (series r).1 ≤ r ∧ (series r).2 ≤ one ∧ r / 2 ≤ (series r).1 ∧ one / 2 ≤ (series r).2 := by
  have square : r * r / one ≤ one := Nat.div_le_of_le_mul (Nat.mul_le_mul small small)
  have sine := taylor_mem square 30 two_pos r
  have cosine := taylor_mem square 30 one_pos one
  have sine' : (r : Int) - (r / (2 * (2 + 1)) : Nat) ≤ taylor (r * r / one) 30 2 r :=
    le_taylor square 29 two_pos r
  have cosine' : (one : Int) - (one / (1 * (1 + 1)) : Nat) ≤ taylor (r * r / one) 30 1 one :=
    le_taylor square 29 one_pos one
  simp only [series]
  omega

private theorem shortPi_mem : 3 * one + 8 ≤ shortPi ∧ shortPi ≤ 4 * one := by decide +kernel

private theorem one_lt_right : 2 ^ circleBits < pi / 2 := by decide +kernel

private theorem quadrant_le (r : Nat) : (quadrant r).1 ≤ one ∧ (quadrant r).2 ≤ one := by
  obtain ⟨low, high⟩ := shortPi_mem
  unfold quadrant
  split
  · obtain ⟨sine, cosine, -⟩ := series_le (by omega : r ≤ one)
    exact ⟨by omega, cosine⟩
  · obtain ⟨sine, cosine, -⟩ := series_le (by omega : shortPi / 2 - r ≤ one)
    exact ⟨cosine, by simp only; omega⟩

private theorem quadrant_ratio {r : Nat} (small : r ≤ one) :
    (quadrant r).1 ≤ 4 * (quadrant r).2 := by
  obtain ⟨low, high⟩ := shortPi_mem
  have full : 8 ≤ one := by decide
  unfold quadrant
  split
  · obtain ⟨sine, -, -, cosine⟩ := series_le small
    omega
  · obtain ⟨-, cosine, sine, -⟩ := series_le (by omega : shortPi / 2 - r ≤ one)
    simp only
    omega

private theorem sineCosine_le (m : Nat) (e : Int) :
    (sineCosine m e).1.2 ≤ one ∧ (sineCosine m e).2.2 ≤ one := by
  unfold sineCosine
  have part := quadrant_le (m * Nat.pow 2 (e + (circleBits : Int)).toNat % (pi / 2)
    / Nat.pow 2 (circleBits - bits))
  simp only
  split <;> exact ⟨by first | exact part.1 | exact part.2, by first | exact part.1 | exact part.2⟩

private theorem sineCosine_small {m : Nat} {e : Int} (small : m * (2 : ℚ) ^ e ≤ 1)
    (least : -1074 ≤ e) :
    ∃ r, r ≤ one ∧ sineCosine m e = ((false, (quadrant r).1), (false, (quadrant r).2)) := by
  have power : ∀ k, Nat.pow 2 k = 2 ^ k := fun _ => rfl
  have below : m * 2 ^ (e + (circleBits : Int)).toNat ≤ 2 ^ circleBits := by
    have places : ((e + (circleBits : Int)).toNat : Int) = e + circleBits := by
      unfold circleBits
      omega
    have scaled := mul_le_mul_of_nonneg_right small (zpow_nonneg (zero_le_two (α := ℚ)) circleBits)
    rw [mul_assoc, ← zpow_add₀ two_ne_zero, ← places, zpow_natCast, one_mul, zpow_natCast] at scaled
    exact_mod_cast scaled
  have first : m * 2 ^ (e + (circleBits : Int)).toNat < pi / 2 := below.trans_lt one_lt_right
  refine ⟨m * 2 ^ (e + (circleBits : Int)).toNat / 2 ^ (circleBits - bits), ?_, ?_⟩
  · refine (Nat.div_le_div_right below).trans (le_of_eq ?_)
    have left : circleBits - (circleBits - bits) = bits := rfl
    rw [Nat.pow_div (Nat.sub_le _ _) two_pos, left]
    rfl
  · simp only [sineCosine, power, Nat.div_eq_of_lt first, Nat.mod_eq_of_lt first,
      Nat.zero_mod]

end Angle

open Angle Binary

variable {x : Float} {m : Nat} {e : Int}

private theorem within_of_isTiny {negative : Bool} (read : ofFloat x = .finite negative m e)
    (tiny : isTiny m e = true) : Within 0 x := by
  refine ⟨isFinite_of_read read, ?_⟩
  rw [abs_exactValue_of_read read, zpow_zero]
  simp only [isTiny, Bool.or_eq_true, beq_iff_eq, decide_eq_true_eq] at tiny
  rcases tiny with rfl | tiny
  · simp
  · calc
      (m : ℚ) * 2 ^ e ≤ 2 ^ ((m.log2 : Int) + 1 + e) := le_two_zpow_log2 m e
      _ ≤ 2 ^ (0 : Int) := zpow_le_zpow_right₀ one_le_two (by omega)
      _ = 1 := zpow_zero _

private theorem within_fixed {negative inexact : Bool} {s : Nat} (small : s ≤ one) :
    Within 0 (nearest negative s (-(bits : Int)) inexact) := by
  refine within_nearest (by decide) (by decide) ?_
  have unit : (0 : ℚ) < 2 ^ bits := pow_pos two_pos bits
  rw [zpow_neg, zpow_natCast, zpow_zero, ← div_eq_mul_inv, div_le_one unit]
  exact_mod_cast small

theorem within_sine (finite : isFinite x = true) : Within 0 (sine x) := by
  obtain ⟨negative, m, e, read, -⟩ := exists_read finite
  rw [sine, read]
  simp only
  split
  · rename_i tiny
    exact within_of_isTiny read tiny
  · exact within_fixed (sineCosine_le m e).1

theorem within_cosine (finite : isFinite x = true) : Within 0 (cosine x) := by
  obtain ⟨negative, m, e, read, -⟩ := exists_read finite
  rw [cosine, read]
  simp only
  split
  · exact .of_test (by decide)
  · exact within_fixed (sineCosine_le m e).2

theorem within_tangent (h : Within 0 x) : Within 2 (tangent x) := by
  obtain ⟨negative, m, e, read, -, least⟩ := exists_read h.finite
  have small := h.most
  rw [abs_exactValue_of_read read, zpow_zero] at small
  obtain ⟨r, within, same⟩ := sineCosine_small small least
  rw [tangent, read]
  simp only [same]
  split
  · rename_i tiny
    exact (within_of_isTiny read tiny).mono (by decide)
  · refine within_ofRatio (by decide) (by decide) ?_
    rw [Nat.mul_comm]
    exact quadrant_ratio within

end Texture.Number
