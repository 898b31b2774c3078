/- Texture/Proofs/Number/Remainder
   digest: The remainder on division by one is exact as long as it has the sign of the float. Moved
   up by one it is rounded, and for the floats just below zero it comes to one itself. -/

import Texture.Proofs.Number.Position

set_option autoImplicit false
set_option relaxedAutoImplicit false

namespace Texture.Number

open Binary
open Float.Model (Format UnpackedFloat)
open Float.Model.UnpackedFloat

variable {x y : Float} {m n : Nat} {e t : Int} {q : ℚ}

structure IsFraction (x : Float) : Prop where
  finite : isFinite x = true
  least : 0 ≤ exactValue x
  less : exactValue x < 1

/-- A float below zero that cannot be told from it beside one. -/
structure IsJustBelow (x : Float) : Prop where
  least : -2 ^ (-54 : Int) ≤ exactValue x
  negative : exactValue x < 0

theorem Beyond.not_isJustBelow (h : Beyond (-53) x) : ¬IsJustBelow x := by
  intro close
  have size := h.least
  rw [abs_of_neg close.negative] at size
  have apart : (2 : ℚ) ^ (-53 : Int) ≤ 2 ^ (-54 : Int) := size.trans (neg_le.1 close.least)
  exact absurd apart (by norm_num)

/-! The part of a magnitude behind the point. -/

private theorem fract_magnitude (m : Nat) (e : Int) :
    Int.fract ((m : ℚ) * 2 ^ e) = (m % 2 ^ (-e).toNat : Nat) * 2 ^ e := by
  rcases le_or_gt 0 e with whole | fraction
  · have natural : (m : ℚ) * 2 ^ e = (m * 2 ^ e.toNat : Nat) := by
      rw [← Int.toNat_of_nonneg whole, zpow_natCast]
      push_cast
      rfl
    have none : (-e).toNat = 0 := by omega
    rw [natural, Int.fract_natCast, none, pow_zero, Nat.mod_one, Nat.cast_zero, zero_mul]
  · have unit : (2 : ℚ) ^ e = ((2 ^ (-e).toNat : Nat) : ℚ)⁻¹ := by
      have exponent : e = -((-e).toNat : Int) := by omega
      conv_lhs => rw [exponent, zpow_neg, zpow_natCast]
      push_cast
      rfl
    rw [unit, ← div_eq_mul_inv, ← div_eq_mul_inv, Int.fract_div_natCast_eq_div_natCast_mod]

private theorem fract_eq_of_small (short : m < 2 * fractionUnit)
    (some : 0 < Int.fract ((m : ℚ) * 2 ^ e))
    (small : Int.fract ((m : ℚ) * 2 ^ e) ≤ 2 ^ (-54 : Int)) :
    Int.fract ((m : ℚ) * 2 ^ e) = m * 2 ^ e := by
  have unit : (0 : ℚ) < 2 ^ e := zpow_pos two_pos e
  rw [fract_magnitude] at some small
  have one : 1 ≤ m % 2 ^ (-e).toNat := by
    exact_mod_cast pos_of_mul_pos_left some unit.le
  have fine : (2 : ℚ) ^ e ≤ 2 ^ (-54 : Int) :=
    (le_mul_of_one_le_left unit.le (by exact_mod_cast one)).trans small
  refine Int.fract_eq_self.2 ⟨mul_nonneg (Nat.cast_nonneg m) unit.le, ?_⟩
  calc
    (m : ℚ) * 2 ^ e ≤ (2 * fractionUnit : Nat) * 2 ^ (-54 : Int) :=
      mul_le_mul (Nat.cast_le.2 short.le) fine unit.le (Nat.cast_nonneg _)
    _ < 1 := by norm_num [fractionUnit]

private theorem exact_fractionalPart {negative : Bool} (read : ofFloat x = .finite negative m e)
    (short : m < 2 * fractionUnit) (least : -1074 ≤ e) :
    Exact (fractionalPart x) ((if negative then -1 else 1) * Int.fract ((m : ℚ) * 2 ^ e)) := by
  have power : Nat.pow 2 (-e).toNat = 2 ^ (-e).toNat := rfl
  rw [fract_magnitude, fractionalPart, read]
  simp only [power]
  split
  · rename_i whole
    have none : (-e).toNat = 0 := by omega
    have zero := exact_nearest (m := 0) (e := 0) negative (by decide) (by decide) (by decide)
    rw [none, pow_zero, Nat.mod_one]
    rwa [Nat.cast_zero, zero_mul] at zero ⊢
  · exact exact_nearest negative ((Nat.mod_le _ _).trans_lt short) least (by omega)

/-! Sums above zero. -/

private theorem Marks.lt_rounded {em : ExtendedMantissa} (h : Marks em q) (odd : n % 2 = 1)
    (least : n + 1 / 2 ≤ q) : n < em.roundedMantissa := by
  obtain ⟨m, _ | _, _ | _⟩ := em <;> simp only [Marks] at h
  · have above : (n : ℚ) < m := by linarith
    exact Nat.cast_lt.1 above
  · have above : (n : ℚ) < m := by linarith
    exact Nat.cast_lt.1 above
  · have above : (n : ℚ) ≤ m := by linarith
    have := Nat.cast_le.1 above
    simp only [ExtendedMantissa.roundedMantissa, ExtendedMantissa.accuracy,
      Accuracy.roundToNearestEven]
    omega
  · have above : (n : ℚ) < m + 1 := by linarith
    have : n < m + 1 := by exact_mod_cast above
    exact this

private theorem add_settles (hx : isFinite x = true) (hy : isFinite y = true)
    (nonzero : exactValue x ≠ 0 ∧ exactValue y ≠ 0) (positive : 0 < exactValue x + exactValue y) :
    ∃ em t, x + y = .ofModel (.pack (settle .positive em.roundedMantissa t)) ∧
      Marks em ((exactValue x + exactValue y) / 2 ^ t) ∧
      Nearest (exactValue x + exactValue y) em.roundedMantissa t := by
  cases unpacks hx with
  | zero s read value => exact absurd value nonzero.1
  | some s m e some read canonical value =>
    cases unpacks hy with
    | zero t read' value' => exact absurd value' nonzero.2
    | some t n f some' read' canonical' value' =>
      obtain ⟨z, g, result, sum⟩ := add_normalize read read' value value'
      rw [sum] at positive ⊢
      have above : 0 < z := by
        exact_mod_cast pos_of_mul_pos_left positive (zpow_nonneg zero_le_two g)
      have order : compare z 0 = .gt := compare_gt_iff_gt.2 above
      obtain ⟨em, u, settled, near, nearest⟩ :=
        round_settles .positive (by omega : z.toNat ≠ 0) g
      have natural : ((z.toNat : Nat) : ℚ) = z := by
        exact_mod_cast congrArg (Int.cast (R := ℚ)) (Int.toNat_of_nonneg above.le)
      rw [natural] at near nearest
      refine ⟨em, u, ?_, near, nearest⟩
      rw [result, UnpackedFloat.normalize, order]
      exact congrArg (fun u => Float.ofModel (.pack u)) settled

private theorem exact_settle (nearest : Nearest q n t) (positive : 0 ≤ q)
    (room : q ≤ 2 ^ (1023 : Int)) :
    Exact (.ofModel (.pack (settle .positive n t))) (n * 2 ^ t) := by
  have packable : IsPackable (settle .positive n t) := by
    refine (settle_packable_or_large nearest.small nearest.significand).resolve_right ?_
    rintro ⟨-, large⟩
    exact (nearest.most (by decide) room).not_gt large
  refine ⟨(nearest.rounds .positive positive (.inl room)).finite, ?_⟩
  rw [exactValue, ofFloat_eq, toModel_pack _ packable,
    ← magnitude_settle (s := .positive) nearest.short]
  by_cases none : n = 0
  · simp [settle, ofUnpacked, magnitude, none]
  · by_cases short : n < 2 * fractionUnit <;> simp [settle, ofUnpacked, magnitude, none, short]

/-! Numbers just below one. -/

private theorem Nearest.unit_le (h : Nearest q n t) (below : q < 1) : t ≤ -53 := by
  by_contra coarse
  have full := h.full.resolve_right (by omega)
  have grown : (2 : ℚ) ^ (-52 : Int) ≤ 2 ^ t := zpow_le_zpow_right₀ one_le_two (by omega)
  have one : (fractionUnit : ℚ) * 2 ^ (-52 : Int) = 1 := by norm_num [fractionUnit]
  have := mul_le_mul_of_nonneg_left grown (Nat.cast_nonneg (α := ℚ) fractionUnit)
  linarith

private theorem Nearest.lt_one (h : Nearest q n t) (less : q < 1 - 2 ^ (-54 : Int)) :
    (n : ℚ) * 2 ^ t < 1 := by
  have unit : (0 : ℚ) < 2 ^ t := zpow_pos two_pos t
  have half : (2 : ℚ) ^ (-54 : Int) = 1 / 2 * 2 ^ (-53 : Int) := by norm_num
  have below : q < 1 := less.trans (by norm_num)
  have fine : (2 : ℚ) ^ t ≤ 2 ^ (-53 : Int) := zpow_le_zpow_right₀ one_le_two (h.unit_le below)
  have whole : ((2 ^ (-t).toNat : Nat) : ℚ) * 2 ^ t = 1 := by
    rw [← zero_sub t, ← two_zpow_split (by have := h.unit_le below; omega), zpow_zero]
  have last : ((2 ^ (-t).toNat - 1 : Nat) : ℚ) * 2 ^ t = 1 - 2 ^ t := by
    rw [Nat.cast_sub Nat.one_le_two_pow, Nat.cast_one, sub_mul, one_mul, whole]
  have closest : q < ((2 ^ (-t).toNat - 1 : Nat) + 1 / 2) * 2 ^ t := by
    calc
      q < 1 - 1 / 2 * 2 ^ (-53 : Int) := half ▸ less
      _ ≤ 1 - 1 / 2 * 2 ^ t := sub_le_sub_left (mul_le_mul_of_nonneg_left fine (by norm_num)) 1
      _ = ((2 ^ (-t).toNat - 1 : Nat) + 1 / 2) * 2 ^ t := by rw [add_mul, last]; ring
  have most := Nearest.cast_le (t := t) (h.le_of_lt_half _ closest)
  rw [last] at most
  linarith

private theorem Nearest.eq_one {em : ExtendedMantissa} (h : Nearest q em.roundedMantissa t)
    (marks : Marks em (q / 2 ^ t)) (below : q < 1) (least : 1 - 2 ^ (-54 : Int) ≤ q) :
    (em.roundedMantissa : ℚ) * 2 ^ t = 1 := by
  have coarse : -53 ≤ t := by
    by_contra finer
    have step : (2 : ℚ) ^ t ≤ 2 ^ (-54 : Int) := zpow_le_zpow_right₀ one_le_two (by omega)
    have long : ((2 * fractionUnit + 1 : Nat) : ℚ) * 2 ^ t ≤ q := by
      calc
        ((2 * fractionUnit + 1 : Nat) : ℚ) * 2 ^ t
          ≤ (2 * fractionUnit + 1 : Nat) * 2 ^ (-54 : Int) :=
            mul_le_mul_of_nonneg_left step (Nat.cast_nonneg _)
        _ ≤ 1 - 2 ^ (-54 : Int) := by norm_num [fractionUnit]
        _ ≤ q := least
    -- With a finer unit the number would have a bit too many.
    exact absurd (h.ge_of_ge _ long) (not_le.2 (Nat.lt_succ_of_le h.short))
  obtain rfl : t = -53 := le_antisymm (h.unit_le below) coarse
  have odd : (2 * fractionUnit - 1) % 2 = 1 := by decide
  have middle : ((2 * fractionUnit - 1 : Nat) : ℚ) + 1 / 2 ≤ q / 2 ^ (-53 : Int) := by
    rw [le_div_iff₀ (zpow_pos two_pos _)]
    refine le_trans (le_of_eq ?_) least
    norm_num [fractionUnit]
  have grown : em.roundedMantissa = 2 * fractionUnit := by
    have up := marks.lt_rounded odd middle
    have := h.short
    omega
  rw [grown]
  norm_num [fractionUnit]

/-- A negative float moved up by one is below one, unless it cannot be told from zero beside it. -/
private theorem add_one_settles (finite : isFinite x = true) (negative : exactValue x < 0)
    (above : -1 < exactValue x) :
    (exactValue x < -2 ^ (-54 : Int) → IsFraction (x + 1.0)) ∧
      (-2 ^ (-54 : Int) ≤ exactValue x → Exact (x + 1.0) 1) := by
  have one : isFinite 1.0 = true := by decide
  have nonzero : exactValue 1.0 ≠ 0 := by
    rw [exactValue_one]
    exact one_ne_zero
  have positive : 0 < exactValue x + exactValue 1.0 := by
    rw [exactValue_one]
    linarith
  have below : exactValue x + exactValue 1.0 < 1 := by
    rw [exactValue_one]
    linarith
  -- The sum is rounded once, to a number of units that is nearest to the exact one.
  obtain ⟨em, t, result, near, nearest⟩ := add_settles finite one ⟨negative.ne, nonzero⟩ positive
  have exact := exact_settle nearest positive.le
    (below.le.trans (one_le_zpow₀ one_le_two (by decide)))
  rw [← result] at exact
  constructor
  · intro far
    refine ⟨exact.finite, ?_, ?_⟩ <;> rw [exact.value]
    · exact mul_nonneg (Nat.cast_nonneg _) (zpow_nonneg zero_le_two t)
    · refine nearest.lt_one ?_
      rw [exactValue_one]
      linarith
  · intro close
    refine ⟨exact.finite, exact.value.trans (nearest.eq_one near below ?_)⟩
    rw [exactValue_one]
    linarith

/-! The remainder. -/

section

variable (finite : isFinite x = true)

include finite

private theorem fractionalPart_lt : isFinite (fractionalPart x) = true ∧
    -1 < exactValue (fractionalPart x) ∧ exactValue (fractionalPart x) < 1 := by
  obtain ⟨negative, m, e, read, short, small⟩ := exists_read finite
  have exact := exact_fractionalPart read short small
  have least := Int.fract_nonneg ((m : ℚ) * 2 ^ e)
  have less := Int.fract_lt_one ((m : ℚ) * 2 ^ e)
  refine ⟨exact.finite, ?_⟩
  rw [exact.value]
  cases negative with
  | false =>
    rw [if_neg Bool.false_ne_true, one_mul]
    exact ⟨by linarith, less⟩
  | true =>
    rw [if_pos rfl, neg_one_mul]
    exact ⟨by linarith, by linarith⟩

private theorem isJustBelow_fractionalPart : IsJustBelow (fractionalPart x) ↔ IsJustBelow x := by
  obtain ⟨negative, m, e, read, short, small⟩ := exists_read finite
  have exact := exact_fractionalPart read short small
  have value := exactValue_of_read read
  have least := Int.fract_nonneg ((m : ℚ) * 2 ^ e)
  have size : 0 ≤ (m : ℚ) * 2 ^ e := mul_nonneg (Nat.cast_nonneg m) (zpow_nonneg zero_le_two e)
  rw [mul_assoc] at value
  cases negative with
  | false =>
    rw [if_neg Bool.false_ne_true, one_mul] at exact value
    constructor
    · rintro ⟨-, negative⟩
      rw [exact.value] at negative
      exact absurd negative least.not_gt
    · rintro ⟨-, negative⟩
      rw [value] at negative
      exact absurd negative size.not_gt
  | true =>
    rw [if_pos rfl, neg_one_mul] at exact value
    -- A magnitude that small has no whole part, so nothing was taken off.
    have kept : Int.fract ((m : ℚ) * 2 ^ e) = m * 2 ^ e →
        (IsJustBelow (fractionalPart x) ↔ IsJustBelow x) := fun whole => by
      rw [whole, ← value] at exact
      exact ⟨fun h => ⟨exact.value ▸ h.least, exact.value ▸ h.negative⟩,
        fun h => ⟨exact.value.symm ▸ h.least, exact.value.symm ▸ h.negative⟩⟩
    constructor
    · intro h
      have small := h.least
      have some := h.negative
      rw [exact.value] at small some
      exact (kept (fract_eq_of_small short (neg_neg_iff_pos.1 some) (neg_le_neg_iff.1 small))).1 h
    · intro h
      have small := h.least
      rw [value] at small
      refine (kept (Int.fract_eq_self.2 ⟨size, ?_⟩)).2 h
      exact (neg_le_neg_iff.1 small).trans_lt (by norm_num)

/-- The remainder is a fraction of one, except for floats just below zero. -/
theorem remainderOne_isFraction (apart : ¬IsJustBelow x) : IsFraction (remainderOne x) := by
  obtain ⟨whole, least, less⟩ := fractionalPart_lt finite
  have zero : isFinite 0.0 = true := by decide
  unfold remainderOne
  simp only
  split
  · rename_i below
    rw [lt_iff whole zero, exactValue_zero] at below
    refine (add_one_settles whole below least).1 (not_le.1 fun close => apart ?_)
    exact (isJustBelow_fractionalPart finite).1 ⟨close, below⟩
  · rename_i above
    rw [lt_iff whole zero, exactValue_zero, not_lt] at above
    exact ⟨whole, above, less⟩

/-- Just below zero, the remainder is rounded up to one. -/
theorem remainderOne_of_isJustBelow (close : IsJustBelow x) : Exact (remainderOne x) 1 := by
  obtain ⟨whole, least, -⟩ := fractionalPart_lt finite
  have below := (isJustBelow_fractionalPart finite).2 close
  have zero : isFinite 0.0 = true := by decide
  have negative : fractionalPart x < 0.0 := by
    rw [lt_iff whole zero, exactValue_zero]
    exact below.negative
  unfold remainderOne
  simp only
  rw [if_pos negative]
  exact (add_one_settles whole below.negative least).2 below.least

end

end Texture.Number
