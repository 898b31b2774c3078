/- Texture/Proofs/Number/Power
   digest: Powers of numbers between zero and one, with a positive exponent, stay small. -/

import Texture.Number.Power
import Texture.Proofs.Number.Size

set_option autoImplicit false
set_option relaxedAutoImplicit false

namespace Texture.Number

namespace Power

private theorem areaTerms_mono {square square' power power' : Nat} (squares : square ≤ square')
    (powers : power ≤ power') (fuel k : Nat) :
    areaTerms square fuel k power ≤ areaTerms square' fuel k power' := by
  induction fuel generalizing k power power' with
  | zero => exact le_rfl
  | succ fuel ih =>
    rw [areaTerms, areaTerms]
    refine Nat.add_le_add (Nat.div_le_div_right powers) (ih ?_ (k + 2))
    exact Nat.div_le_div_right (Nat.mul_le_mul powers squares)

private theorem unit_pos : 0 < one := Nat.two_pow_pos _

private theorem slope_le {d o : Nat} (small : d ≤ o) : d * o / (2 * o + d) * (3 * o) ≤ o * o := by
  have first := Nat.div_mul_le_self (d * o) (2 * o + d)
  have second : d * o / (2 * o + d) ≤ o := by
    refine Nat.div_le_of_le_mul (Nat.mul_le_mul_right o ?_)
    omega
  generalize d * o / (2 * o + d) = s at *
  obtain ⟨c, rfl⟩ := Nat.exists_eq_add_of_le small
  have third := Nat.mul_le_mul_right c second
  nlinarith

private theorem logOfMantissa_le {d : Nat} (small : d ≤ one) :
    logOfMantissa (one + d) ≤ logTwo := by
  have slope : (one + d - one) * one / (one + d + one)
      ≤ (2 * one - one) * one / (2 * one + one) := by
    have positive := unit_pos
    have rise : one + d - one = d := by omega
    have run : one + d + one = 2 * one + d := by omega
    have full : 2 * one - one = one := by omega
    have triple : 2 * one + one = 3 * one := by omega
    rw [rise, run, full, triple, Nat.le_div_iff_mul_le (by omega)]
    exact slope_le small
  rw [logTwo, logOfMantissa, logOfMantissa]
  refine Nat.mul_le_mul_left 2 (areaTerms_mono ?_ slope 64 1)
  exact Nat.div_le_div_right (Nat.mul_le_mul slope slope)

private theorem logOfMantissa_one : logOfMantissa one = 0 := by decide +kernel

private theorem logTwo_mem : 0 < logTwo ∧ logTwo ≤ one := by decide +kernel

private theorem mantissa_mem {m : Nat} (some : 0 < m) (short : m.log2 ≤ bits) :
    one ≤ m * 2 ^ (bits - m.log2) ∧ m * 2 ^ (bits - m.log2) ≤ 2 * one := by
  have split : one = 2 ^ m.log2 * 2 ^ (bits - m.log2) := by
    rw [← Nat.pow_add, Nat.add_sub_cancel' short]
    rfl
  rw [split]
  constructor
  · exact Nat.mul_le_mul_right _ (Nat.log2_self_le some.ne')
  · rw [← Nat.mul_assoc]
    refine Nat.mul_le_mul_right _ ?_
    have := Nat.lt_log2_self (n := m)
    omega

private theorem log_nonpos {m : Nat} {e : Int} (some : 0 < m) (short : m.log2 ≤ bits)
    (small : m * (2 : ℚ) ^ e ≤ 1) : log m e ≤ 0 := by
  have power : Nat.pow 2 (bits - m.log2) = 2 ^ (bits - m.log2) := rfl
  have places : (m.log2 : Int) + e ≤ 0 := by
    have low : (2 : ℚ) ^ ((m.log2 : Int) + e) ≤ 2 ^ (0 : Int) := by
      rw [zpow_zero]
      exact (two_zpow_log2_le some.ne' e).trans small
    exact (zpow_le_zpow_iff_right₀ one_lt_two).1 low
  obtain ⟨low, high⟩ := mantissa_mem some short
  rw [log]
  simp only [power]
  -- A number up to one with its first place before the point is one itself.
  by_cases whole : (m.log2 : Int) + e = 0
  · have exact : m = 2 ^ m.log2 := by
      have exponent : e = -(m.log2 : Int) := by omega
      rw [exponent, zpow_neg, zpow_natCast, ← div_eq_mul_inv,
        div_le_one (pow_pos two_pos _)] at small
      exact le_antisymm (by exact_mod_cast small) (Nat.log2_self_le some.ne')
    have mantissa : m * 2 ^ (bits - m.log2) = one := by
      nth_rewrite 1 [exact]
      rw [← Nat.pow_add, Nat.add_sub_cancel' short]
      rfl
    rw [mantissa, logOfMantissa_one, add_comm e, whole]
    rfl
  · obtain ⟨d, mantissa⟩ := Nat.exists_eq_add_of_le low
    rw [mantissa] at high ⊢
    have part : (logOfMantissa (one + d) : Int) ≤ logTwo :=
      Int.ofNat_le.2 (logOfMantissa_le (by omega))
    have below : e + (m.log2 : Int) ≤ -1 := by omega
    have scaled := Int.mul_le_mul_of_nonneg_right below (Int.natCast_nonneg logTwo)
    omega

private theorem expTerms_le {r : Nat} (small : r ≤ one) (fuel : Nat) {k : Nat} (first : 0 < k)
    (term : Nat) : expTerms r fuel k term ≤ fuel * term := by
  induction fuel generalizing k term with
  | zero => simp [expTerms]
  | succ fuel ih =>
    have next : term * r / one / k ≤ term := by
      refine (Nat.div_le_self _ _).trans (Nat.div_le_of_le_mul ?_)
      rw [Nat.mul_comm]
      exact Nat.mul_le_mul_right _ small
    have rest := (ih (by omega : 0 < k + 1) (term * r / one / k)).trans (Nat.mul_le_mul_left _ next)
    rw [expTerms, Nat.succ_mul]
    omega

private theorem within_exp {t : Int} (small : t ≤ 0) : Within 6 (exp t) := by
  obtain ⟨positive, unit⟩ := logTwo_mem
  unfold exp
  split
  · have := unit_pos
    omega
  · split
    · refine within_nearest (by decide) (by decide) ?_
      rw [Nat.cast_zero, zero_mul]
      exact zpow_nonneg zero_le_two _
    · refine within_nearest (by decide) (by decide) ?_
      have rest : (t % (logTwo : Int)).toNat ≤ one := by
        have := Int.emod_lt_of_pos t (Int.natCast_pos.2 positive)
        omega
      have sum : expTerms (t % (logTwo : Int)).toNat 48 1 one ≤ 2 ^ 6 * one := by
        have below := expTerms_le rest 48 Nat.one_pos one
        exact below.trans (Nat.mul_le_mul_right one (by decide))
      have shift : t / (logTwo : Int) ≤ 0 := by
        have := Int.ediv_le_ediv (Int.natCast_pos.2 positive) small
        rwa [Int.zero_ediv] at this
      calc
        (expTerms (t % (logTwo : Int)).toNat 48 1 one : ℚ) * 2 ^ (t / (logTwo : Int) - bits)
          ≤ (2 ^ 6 * one : Nat) * 2 ^ (-(bits : Int)) :=
            mul_le_mul (Nat.cast_le.2 sum) (zpow_le_zpow_right₀ one_le_two (by omega))
              (zpow_nonneg zero_le_two _) (Nat.cast_nonneg _)
        _ = 2 ^ (6 : Int) := by
          have unit : ((one : Nat) : ℚ) = 2 ^ bits := Nat.cast_pow 2 bits
          rw [Nat.cast_mul, unit, zpow_neg, zpow_natCast, mul_assoc,
            mul_inv_cancel₀ (pow_pos two_pos bits).ne', mul_one]
          norm_num

private theorem scale_nonpos {t e : Int} {m : Nat} (small : t ≤ 0) : scale t false m e ≤ 0 := by
  have product : t * (m : Int) * 1 ≤ 0 := by
    rw [mul_one]
    exact Int.mul_nonpos_of_nonpos_of_nonneg small (Int.natCast_nonneg m)
  unfold scale
  simp only [Bool.false_eq_true, if_false]
  split
  · exact Int.mul_nonpos_of_nonpos_of_nonneg product (Int.natCast_nonneg _)
  · have unit : (0 : Int) < (Nat.pow 2 (-e).toNat : Nat) := Int.natCast_pos.2 (Nat.two_pow_pos _)
    have := Int.ediv_le_ediv unit product
    rwa [Int.zero_ediv] at this

end Power

open Binary Power

variable {x y : Float}

theorem within_power (hx : isFinite x = true) (low : 0 ≤ exactValue x) (high : exactValue x ≤ 1)
    (hy : isFinite y = true) (positive : 0 < exactValue y) : Within 6 (power x y) := by
  obtain ⟨negative, m, e, read, short, -⟩ := exists_read hx
  obtain ⟨up, n, f, read', -⟩ := exists_read hy
  have unsigned : up = false := by
    cases up with
    | false => rfl
    | true => exact absurd positive (exactValue_nonpos read').not_gt
  have exponent : n ≠ 0 := by
    rintro rfl
    rw [exactValue_of_read read'] at positive
    simp at positive
  obtain ⟨n, rfl⟩ := Nat.exists_eq_succ_of_ne_zero exponent
  rw [power, read, read', unsigned]
  cases m with
  | zero =>
    have nothing : Within 6 0.0 := .of_test (by decide +kernel)
    exact nothing
  | succ m =>
    cases negative with
    | true =>
      have size : (0 : ℚ) < (m + 1 : Nat) * 2 ^ e :=
        mul_pos (Nat.cast_pos.2 m.succ_pos) (zpow_pos two_pos e)
      rw [exactValue_of_read read, if_pos rfl] at low
      linarith
    | false =>
      rw [exactValue_of_read read] at high
      have length : (m + 1).log2 ≤ bits := by
        have below := (Nat.log2_lt m.succ_ne_zero).2 (show m + 1 < 2 ^ 53 from short)
        exact (Nat.lt_succ_iff.1 below).trans (by decide)
      exact within_exp (scale_nonpos (log_nonpos m.succ_pos length (by simpa using high)))

end Texture.Number
