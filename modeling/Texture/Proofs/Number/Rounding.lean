/- Texture/Proofs/Number/Rounding
   digest: Sums, products and quotients of floats are rounded from the exact ones without crossing a
   power of two. -/

import Texture.Proofs.Number.Canonical

set_option autoImplicit false
set_option relaxedAutoImplicit false

namespace Texture.Number

open Binary
open Float.Model (Format UnpackedFloat)
open Float.Model.UnpackedFloat

/-! A mantissa with residual bits stands for an interval, and shifting halves it. -/

/-- The numbers that a mantissa with its residual bits stands for. -/
def Marks : ExtendedMantissa → ℚ → Prop
  | ⟨m, false, false⟩, q => q = m
  | ⟨m, false, true⟩, q => m < q ∧ q < m + 1 / 2
  | ⟨m, true, false⟩, q => q = m + 1 / 2
  | ⟨m, true, true⟩, q => m + 1 / 2 < q ∧ q < m + 1

section

variable {em : ExtendedMantissa} {q : ℚ}

private theorem Marks.half (h : Marks em q) : Marks em.shiftRightOne (q / 2) := by
  obtain ⟨m, round, sticky⟩ := em
  obtain ⟨n, rfl | rfl⟩ := Nat.even_or_odd' m
  · have shifted : ExtendedMantissa.shiftRightOne ⟨2 * n, round, sticky⟩
        = ⟨n, false, round || sticky⟩ := by
      simp [ExtendedMantissa.shiftRightOne]
    rw [shifted]
    cases round <;> cases sticky <;>
      simp only [Marks, Bool.or_self, Bool.or_true, Bool.or_false, Nat.cast_mul,
        Nat.cast_ofNat] at h ⊢
    · linarith
    · constructor <;> linarith
    · constructor <;> linarith
    · constructor <;> linarith
  · have shifted : ExtendedMantissa.shiftRightOne ⟨2 * n + 1, round, sticky⟩
        = ⟨n, true, round || sticky⟩ := by
      have whole : (2 * n + 1) / 2 = n := by omega
      simp [ExtendedMantissa.shiftRightOne, whole]
    rw [shifted]
    cases round <;> cases sticky <;>
      simp only [Marks, Bool.or_self, Bool.or_true, Bool.or_false, Nat.cast_add, Nat.cast_mul,
        Nat.cast_ofNat, Nat.cast_one] at h ⊢
    · linarith
    · constructor <;> linarith
    · constructor <;> linarith
    · constructor <;> linarith

private theorem Marks.shift (h : Marks em q) (k : Nat) : Marks (em >>> k) (q / 2 ^ k) := by
  induction k with
  | zero =>
    rw [pow_zero, div_one]
    exact h
  | succ k ih =>
    rw [pow_succ, ← div_div]
    exact ih.half

private theorem Marks.mantissa_le (h : Marks em q) : (em.mantissa : ℚ) ≤ q := by
  obtain ⟨m, _ | _, _ | _⟩ := em <;> simp only [Marks] at h <;> dsimp only <;> linarith

private theorem Marks.rounded_le_of_lt_half (h : Marks em q) {n : Nat} (most : q < n + 1 / 2) :
    em.roundedMantissa ≤ n := by
  obtain ⟨m, _ | _, _ | _⟩ := em <;> simp only [Marks] at h
  · have : (m : ℚ) < n + 1 := by linarith
    exact Nat.lt_succ_iff.1 (by exact_mod_cast this)
  · have : (m : ℚ) < n + 1 := by linarith
    exact Nat.lt_succ_iff.1 (by exact_mod_cast this)
  · have above : (m : ℚ) < n := by linarith
    have := Nat.cast_lt.1 above
    simp only [ExtendedMantissa.roundedMantissa, ExtendedMantissa.accuracy,
      Accuracy.roundToNearestEven]
    omega
  · have above : (m : ℚ) < n := by linarith
    exact Nat.cast_lt.1 above

private theorem Marks.rounded_le (h : Marks em q) {n : Nat} (most : q ≤ n) :
    em.roundedMantissa ≤ n :=
  h.rounded_le_of_lt_half (by linarith)

private theorem Marks.le_rounded (h : Marks em q) {n : Nat} (least : n ≤ q) :
    n ≤ em.roundedMantissa := by
  obtain ⟨m, _ | _, _ | _⟩ := em <;> simp only [Marks] at h
  · rw [h] at least
    exact Nat.cast_le.1 least
  · have : (n : ℚ) < m + 1 := by linarith
    exact Nat.lt_succ_iff.1 (by exact_mod_cast this)
  · have below : (n : ℚ) < m + 1 := by linarith
    have : n ≤ m := Nat.lt_succ_iff.1 (by exact_mod_cast below)
    simp only [ExtendedMantissa.roundedMantissa, ExtendedMantissa.accuracy,
      Accuracy.roundToNearestEven]
    omega
  · have below : (n : ℚ) < m + 1 := by linarith
    have : n ≤ m := Nat.lt_succ_iff.1 (by exact_mod_cast below)
    exact this.trans (Nat.le_succ m)

end

def roundingExponent (m : Nat) (e : Int) : Int := max (m.log2 + e - 52) (-1074)

theorem targetExponent_eq (m : Nat) (e : Int) :
    Format.binary64.targetExponent (Float.Model.totalExponent m e) = roundingExponent m e := by
  have width : Format.mantissaBits Format.binary64 = 53 := rfl
  have least : Format.minExponent Format.binary64 = -1074 := rfl
  rw [Format.targetExponent, Float.Model.totalExponent, width, least, roundingExponent]
  omega

theorem two_zpow_split {t k : Int} (le : t ≤ k) :
    (2 : ℚ) ^ k = ((2 ^ (k - t).toNat : Nat) : ℚ) * 2 ^ t := by
  rw [Nat.cast_pow, Nat.cast_ofNat, ← zpow_natCast, ← zpow_add₀ two_ne_zero]
  congr 1
  omega

theorem fractionUnit_mul (k : Int) : ((fractionUnit : Nat) : ℚ) * 2 ^ (k - 52) = 2 ^ k := by
  rw [zpow_sub₀ two_ne_zero, fractionUnit]
  norm_num
  field_simp

private theorem half_step (k : Int) : (2 : ℚ) ^ (k - 53) = 1 / 2 * 2 ^ (k - 52) := by
  have exponent : k - 53 = -1 + (k - 52) := by omega
  rw [exponent, zpow_add₀ two_ne_zero]
  norm_num

private theorem shift_rounded {n : Nat} {t : Int} (short : n ≤ 2 * fractionUnit)
    (small : -1074 ≤ t) : shiftToTargetExponent Format.binary64 n t .exact
      = if n < 2 * fractionUnit then (⟨n, false, false⟩, t)
        else (⟨fractionUnit, false, false⟩, t + 1) := by
  rw [shiftToTargetExponent, targetExponent_eq]
  split
  · rename_i below
    have length : n.log2 ≤ 52 := by
      by_cases none : n = 0
      · rw [none]
        decide
      · exact Nat.lt_succ_iff.1 ((Nat.log2_lt none).2 below)
    have still : (roundingExponent n t - t).toNat = 0 := by
      rw [roundingExponent]
      omega
    simp only [shiftToExponent, still]
    exact Prod.ext rfl (Int.add_zero t)
  · obtain rfl : n = fractionUnit * 2 ^ 1 := by omega
    have length : (fractionUnit * 2 ^ 1).log2 = 53 := by decide
    have once : (roundingExponent (fractionUnit * 2 ^ 1) t - t).toNat = 1 := by
      rw [roundingExponent, length]
      omega
    simp only [shiftToExponent, once, ExtendedMantissa.ofMantissaAndAccuracy, shiftRight_exact]
    rfl

def settle (s : Sign) (n : Nat) (t : Int) : UnpackedFloat :=
  if none : n = 0 then .zero s
  else if n < 2 * fractionUnit then .finite s n t (Nat.pos_of_ne_zero none)
  else .finite s fractionUnit (t + 1) (by decide)

section

variable {s : Sign} {n : Nat} {t : Int}

theorem magnitude_settle (short : n ≤ 2 * fractionUnit) :
    magnitude (settle s n t) = n * (2 : ℚ) ^ t := by
  unfold settle
  split
  · rename_i none
    simp [magnitude, none]
  · split
    · rfl
    · have grown : n = fractionUnit * 2 := by omega
      rw [magnitude, zpow_add_one₀ two_ne_zero, grown, Nat.cast_mul, Nat.cast_ofNat]
      ring

private theorem isFinite_pack_large {m : Nat} {e : Int} (positive : 0 < m) (large : 971 < e) :
    isFinite (.ofModel (.pack (.finite s m e positive))) = false := by
  have bits : UnpackedFloat.pack Format.binary64 (.finite s m e positive)
      = packedInfinity Format.binary64 s := by
    have width : Format.mantissaBits Format.binary64 = 53 := rfl
    have bias : Format.exponentBias Format.binary64 = 1023 := rfl
    simp only [pack, width, bias]
    rw [if_pos (by simp; omega)]
  have unpacked : (Float.ofModel (.pack (.finite s m e positive))).toModel.unpack
      = .infinity s := by
    have packed : (Float.ofModel (.pack (.finite s m e positive))).toModel.unpack
        = UnpackedFloat.unpack Format.binary64
          (UnpackedFloat.pack Format.binary64 (.finite s m e positive)) := rfl
    rw [packed, bits]
    cases s <;> rfl
  rw [isFinite_eq, unpacked]
  rfl

/-- A rounded significand is packed without loss, or else it is too large. -/
theorem settle_packable_or_large (small : -1074 ≤ t) (full : fractionUnit ≤ n ∨ t = -1074) :
    IsPackable (settle s n t) ∨ isFinite (.ofModel (.pack (settle s n t))) = false ∧
      (2 : ℚ) ^ (1023 : Int) < n * 2 ^ t := by
  have beyond : ∀ places : Nat, 2 ^ places ≤ n → 1023 < places + t →
      (2 : ℚ) ^ (1023 : Int) < n * 2 ^ t := by
    intro places full large
    have full : (2 : ℚ) ^ (places : Int) ≤ n := by
      rw [zpow_natCast]
      exact_mod_cast full
    calc
      (2 : ℚ) ^ (1023 : Int) < 2 ^ (places + t) := zpow_lt_zpow_right₀ one_lt_two large
      _ = 2 ^ (places : Int) * 2 ^ t := zpow_add₀ two_ne_zero _ _
      _ ≤ n * 2 ^ t := mul_le_mul_of_nonneg_right full (zpow_nonneg zero_le_two t)
  unfold settle
  split
  · exact .inl trivial
  · rename_i some
    split
    · rename_i below
      by_cases large : t ≤ 971
      · exact .inl ⟨Nat.pos_of_ne_zero some, below, small, large, full⟩
      · have full := full.resolve_right (by omega)
        exact .inr ⟨isFinite_pack_large _ (by omega), beyond 52 full (by omega)⟩
    · by_cases large : t + 1 ≤ 971
      · exact .inl ⟨by decide, by decide, by omega, large, .inl le_rfl⟩
      · rename_i above
        exact .inr ⟨isFinite_pack_large _ (by omega), beyond 53 (not_lt.1 above) (by omega)⟩

end

theorem toModel_pack (u : UnpackedFloat) (packable : IsPackable u) :
    (Float.ofModel (.pack u)).toModel.unpack = u := unpack_pack packable

/-- A float on the same side of every power of two as a number, of which only the size counts. What
is less than half a step above a power of two goes back to it. -/
structure Rounds (q : ℚ) (x : Float) : Prop where
  finite : isFinite x = true
  most : ∀ k : Int, -1074 ≤ k → |q| ≤ 2 ^ k → |exactValue x| ≤ 2 ^ k
  least : ∀ k : Int, -1074 ≤ k → 2 ^ k ≤ |q| → 2 ^ k ≤ |exactValue x|
  still : ∀ k : Int, -1022 ≤ k → |q| < 2 ^ k + 2 ^ (k - 53) → |exactValue x| ≤ 2 ^ k

/-- A whole number of units that is nearest to a number, with no bits too many, nor too few unless
the unit is the least one. -/
structure Nearest (q : ℚ) (n : Nat) (t : Int) : Prop where
  small : -1074 ≤ t
  short : n ≤ 2 * fractionUnit
  full : (fractionUnit : Nat) * 2 ^ t ≤ q ∨ t = -1074
  le_of_le : ∀ k : Nat, q ≤ k * 2 ^ t → n ≤ k
  ge_of_ge : ∀ k : Nat, k * 2 ^ t ≤ q → k ≤ n
  le_of_lt_half : ∀ k : Nat, q < (k + 1 / 2) * 2 ^ t → n ≤ k

namespace Nearest

variable {q : ℚ} {n : Nat} {k t : Int}

theorem cast_le {m : Nat} (le : n ≤ m) : (n : ℚ) * 2 ^ t ≤ m * 2 ^ t :=
  mul_le_mul_of_nonneg_right (Nat.cast_le.2 le) (zpow_nonneg zero_le_two t)

theorem significand (h : Nearest q n t) : fractionUnit ≤ n ∨ t = -1074 :=
  h.full.imp_left (h.ge_of_ge _)

private theorem above (h : Nearest q n t) (small : -1074 ≤ k) (less : k < t) :
    2 ^ (k + 53) ≤ q := by
  have full := h.full.resolve_right (by omega)
  refine le_trans ?_ full
  rw [← fractionUnit_mul (k + 53)]
  exact mul_le_mul_of_nonneg_left (zpow_le_zpow_right₀ one_le_two (by omega)) (Nat.cast_nonneg _)

theorem most (h : Nearest q n t) (small : -1074 ≤ k) (bound : q ≤ 2 ^ k) :
    (n : ℚ) * 2 ^ t ≤ 2 ^ k := by
  by_cases le : t ≤ k
  · rw [two_zpow_split le] at bound ⊢
    exact cast_le (h.le_of_le _ bound)
  · have above := h.above small (not_le.1 le)
    have apart : (2 : ℚ) ^ k < 2 ^ (k + 53) := zpow_lt_zpow_right₀ one_lt_two (by omega)
    exact absurd bound (apart.trans_le above).not_ge

private theorem least (h : Nearest q n t) (small : -1074 ≤ k) (bound : 2 ^ k ≤ q) :
    2 ^ k ≤ (n : ℚ) * 2 ^ t := by
  by_cases le : t ≤ k
  · rw [two_zpow_split le] at bound ⊢
    exact cast_le (h.ge_of_ge _ bound)
  · have full := h.significand.resolve_right (by omega)
    refine le_trans ?_ (cast_le full)
    rw [← fractionUnit_mul k]
    refine mul_le_mul_of_nonneg_left ?_ (Nat.cast_nonneg _)
    exact zpow_le_zpow_right₀ one_le_two (by omega)

private theorem still (h : Nearest q n t) (small : -1022 ≤ k) (bound : q < 2 ^ k + 2 ^ (k - 53)) :
    (n : ℚ) * 2 ^ t ≤ 2 ^ k := by
  rcases lt_trichotomy t (k - 52) with less | rfl | more
  · have wide : 2 * fractionUnit ≤ 2 ^ (k - t).toNat :=
      Nat.pow_le_pow_right two_pos (by omega : 53 ≤ (k - t).toNat)
    rw [two_zpow_split (by omega : t ≤ k)]
    exact cast_le (h.short.trans wide)
  · rw [half_step, ← fractionUnit_mul k, ← add_mul] at bound
    rw [← fractionUnit_mul k]
    exact cast_le (h.le_of_lt_half _ bound)
  · have above := h.above (k := k - 52) (by omega) more
    have step : (2 : ℚ) ^ (k - 53) ≤ 2 ^ k := zpow_le_zpow_right₀ one_le_two (by omega)
    have double : (2 : ℚ) ^ (k - 52 + 53) = 2 ^ k * 2 := by
      rw [← zpow_add_one₀ two_ne_zero]
      congr 1
      omega
    linarith

theorem rounds (h : Nearest q n t) (s : Sign) (positive : 0 ≤ q)
    (fits : q ≤ 2 ^ (1023 : Int) ∨ isFinite (.ofModel (.pack (settle s n t))) = true) :
    Rounds q (.ofModel (.pack (settle s n t))) := by
  have packable : IsPackable (settle s n t) := by
    refine (settle_packable_or_large h.small h.significand).resolve_right ?_
    rintro ⟨infinite, large⟩
    rcases fits with room | finite
    · exact (h.most (by decide) room).not_gt large
    · rw [infinite] at finite
      cases finite
  have result : |exactValue (.ofModel (.pack (settle s n t)))| = n * 2 ^ t := by
    rw [abs_exactValue, toModel_pack _ packable, magnitude_settle h.short]
  refine ⟨?_, ?_, ?_, ?_⟩
  · rw [isFinite_eq, toModel_pack _ packable]
    unfold settle
    split
    · rfl
    · split <;> rfl
  · rw [abs_of_nonneg positive, result]
    exact fun k => h.most
  · rw [abs_of_nonneg positive, result]
    exact fun k => h.least
  · rw [abs_of_nonneg positive, result]
    exact fun k => h.still

end Nearest

section

variable {s : Sign} {m : Nat} {e : Int} {accuracy : Accuracy} {q : ℚ}

theorem Rounds.congr {q p : ℚ} {x : Float} (h : Rounds q x) (same : |q| = |p|) : Rounds p x :=
  ⟨h.finite, same ▸ h.most, same ▸ h.least, same ▸ h.still⟩

private theorem Marks.le_succ {em : ExtendedMantissa} (h : Marks em q) : q ≤ em.mantissa + 1 := by
  obtain ⟨m, _ | _, _ | _⟩ := em <;> simp only [Marks] at h <;> dsimp only <;> linarith

private theorem mantissa_ofMantissaAndAccuracy (m : Nat) (accuracy : Accuracy) :
    (ExtendedMantissa.ofMantissaAndAccuracy m accuracy).mantissa = m := by
  cases accuracy with
  | exact => rfl
  | inexact relative => cases relative <;> rfl

theorem shift_marks (marks : Marks (.ofMantissaAndAccuracy m accuracy) q)
    (short : e ≤ roundingExponent m e) :
    ∃ em, shiftToTargetExponent Format.binary64 m e accuracy = (em, roundingExponent m e) ∧
      Marks em (q * 2 ^ (e - roundingExponent m e)) := by
  have amount : ((roundingExponent m e - e).toNat : Int) = roundingExponent m e - e := by omega
  have power : q * 2 ^ (e - roundingExponent m e) = q / 2 ^ (roundingExponent m e - e).toNat := by
    rw [← zpow_natCast, amount, div_eq_mul_inv, ← zpow_neg, neg_sub]
  refine ⟨_, ?_, power ▸ marks.shift _⟩
  rw [shiftToTargetExponent, targetExponent_eq, shiftToExponent]
  exact Prod.ext rfl (by simp only [amount]; omega)

theorem shifted_size (marks : Marks (.ofMantissaAndAccuracy m accuracy) q)
    (short : e ≤ roundingExponent m e) :
    q * 2 ^ (e - roundingExponent m e) ≤ ((2 * fractionUnit : Nat) : ℚ) ∧
      (((fractionUnit : Nat) : ℚ) ≤ q * 2 ^ (e - roundingExponent m e) ∨
        roundingExponent m e = -1074) := by
  have low := marks.mantissa_le
  have high := marks.le_succ
  rw [mantissa_ofMantissaAndAccuracy] at low high
  have positive : (0 : ℚ) < 2 ^ (e - roundingExponent m e) := zpow_pos two_pos _
  constructor
  -- The first place of the significand bounds it from above and, unless the exponent is the least
  -- one, from below.
  · have bits : q ≤ 2 ^ ((m.log2 : Int) + 1) := by
      refine high.trans ?_
      rw [← Nat.cast_succ, ← Nat.cast_succ, zpow_natCast]
      exact_mod_cast Nat.lt_log2_self
    calc
      q * 2 ^ (e - roundingExponent m e)
        ≤ 2 ^ ((m.log2 : Int) + 1) * 2 ^ (e - roundingExponent m e) :=
          mul_le_mul_of_nonneg_right bits positive.le
      _ = 2 ^ ((m.log2 : Int) + 1 + (e - roundingExponent m e)) := (zpow_add₀ two_ne_zero _ _).symm
      _ ≤ 2 ^ (53 : Int) := by
        refine zpow_le_zpow_right₀ one_le_two ?_
        rw [roundingExponent]
        omega
      _ = ((2 * fractionUnit : Nat) : ℚ) := by norm_num [fractionUnit]
  · by_cases least : roundingExponent m e = -1074
    · exact .inr least
    · refine .inl ?_
      have exponent : roundingExponent m e = m.log2 + e - 52 := by
        rw [roundingExponent] at least ⊢
        omega
      have some : m ≠ 0 := by
        rintro rfl
        rw [exponent, Nat.log2_zero] at short
        omega
      have bits : (2 : ℚ) ^ (m.log2 : Int) ≤ q := by
        refine le_trans ?_ low
        rw [zpow_natCast]
        exact_mod_cast Nat.log2_self_le some
      calc
        ((fractionUnit : Nat) : ℚ) = 2 ^ ((m.log2 : Int) + (e - roundingExponent m e)) := by
          have : (m.log2 : Int) + (e - roundingExponent m e) = 52 := by omega
          rw [this]
          norm_num [fractionUnit]
        _ = 2 ^ (m.log2 : Int) * 2 ^ (e - roundingExponent m e) := zpow_add₀ two_ne_zero _ _
        _ ≤ q * 2 ^ (e - roundingExponent m e) := mul_le_mul_of_nonneg_right bits positive.le

theorem roundWithAccuracy_eq {em : ExtendedMantissa} {t : Int}
    (shifted : shiftToTargetExponent Format.binary64 m e accuracy = (em, t))
    (short : em.roundedMantissa ≤ 2 * fractionUnit) (small : -1074 ≤ t) :
    roundWithAccuracy Format.binary64 s m e accuracy = settle s em.roundedMantissa t := by
  rw [roundWithAccuracy, shifted]
  simp only [shift_rounded short small]
  unfold settle
  by_cases below : em.roundedMantissa < 2 * fractionUnit
  · simp only [below, if_true]
  · have some : em.roundedMantissa ≠ 0 := by
      simp only [fractionUnit] at below
      omega
    simp only [below, some, if_false, dite_false]
    rfl

theorem nearest_rounded {em : ExtendedMantissa} {t : Int} (near : Marks em (q * 2 ^ (e - t)))
    (small : -1074 ≤ t) (high : q * 2 ^ (e - t) ≤ ((2 * fractionUnit : Nat) : ℚ))
    (low : ((fractionUnit : Nat) : ℚ) ≤ q * 2 ^ (e - t) ∨ t = -1074) :
    Nearest (q * 2 ^ e) em.roundedMantissa t := by
  have unit : (0 : ℚ) < 2 ^ t := zpow_pos two_pos t
  have value : q * 2 ^ e = q * 2 ^ (e - t) * 2 ^ t := by
    rw [mul_assoc, ← zpow_add₀ two_ne_zero, Int.sub_add_cancel]
  rw [value]
  refine ⟨small, near.rounded_le high, low.imp_left fun h => ?_, fun k h => ?_, fun k h => ?_,
    fun k h => ?_⟩
  · exact mul_le_mul_of_nonneg_right h unit.le
  · exact near.rounded_le (le_of_mul_le_mul_right h unit)
  · exact near.le_rounded (le_of_mul_le_mul_right h unit)
  · exact near.rounded_le_of_lt_half (lt_of_mul_lt_mul_right h unit.le)

/-- Rounding to a finite float crosses no power of two. -/
theorem rounds_roundWithAccuracy (marks : Marks (.ofMantissaAndAccuracy m accuracy) q)
    (short : e ≤ roundingExponent m e)
    (fits : q * 2 ^ e ≤ 2 ^ (1023 : Int) ∨
      isFinite (.ofModel (.pack (roundWithAccuracy Format.binary64 s m e accuracy))) = true) :
    Rounds (q * 2 ^ e)
      (.ofModel (.pack (roundWithAccuracy Format.binary64 s m e accuracy))) := by
  obtain ⟨em, shifted, near⟩ := shift_marks marks short
  obtain ⟨high, low⟩ := shifted_size marks short
  have nearest := nearest_rounded near (le_max_right _ _) high low
  have positive : 0 ≤ q * 2 ^ e :=
    mul_nonneg ((Nat.cast_nonneg _).trans marks.mantissa_le) (zpow_nonneg zero_le_two e)
  rw [roundWithAccuracy_eq shifted nearest.short nearest.small] at fits ⊢
  exact nearest.rounds s positive fits

end

end Texture.Number
