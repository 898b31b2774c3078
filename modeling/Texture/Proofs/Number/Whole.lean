/- Texture/Proofs/Number/Whole
   digest: Whole numbers near floats: whole parts, ceilings and halves rounded away from zero keep
   sizes, and what overflows stays infinite. -/

import Texture.Proofs.Number.Size

set_option autoImplicit false
set_option relaxedAutoImplicit false

namespace Texture.Number

open Binary
open Float.Model (Format UnpackedFloat)
open Float.Model.UnpackedFloat

variable {k : Int} {n : Nat} {x y : Float}

theorem within_ofNat {negative : Bool} (least : 0 ≤ k) (greatest : k ≤ 1023)
    (most : n ≤ 2 ^ k.toNat) : Within k (ofNat negative n) := by
  refine within_nearest (by omega) greatest ?_
  have whole : ((2 ^ k.toNat : Nat) : ℚ) = 2 ^ k := by
    rw [Nat.cast_pow, Nat.cast_ofNat, ← zpow_natCast, Int.toNat_of_nonneg least]
  rw [zpow_zero, mul_one, ← whole]
  exact Nat.cast_le.2 most

theorem beyond_ofNat (some : 0 < n) (short : n < 2 * fractionUnit) :
    Beyond 0 (ofNat false n) := by
  obtain ⟨finite, value⟩ := (exact_ofNat some short).1
  refine ⟨finite, ?_⟩
  rw [value, zpow_zero, abs_of_nonneg (Nat.cast_nonneg n)]
  exact Nat.one_le_cast.2 some

theorem beyond_of_wholePart (some : wholePart x ≠ 0) : Beyond 0 x := by
  unfold wholePart at some
  split at some
  · rename_i m e read
    refine ⟨isFinite_of_read read, ?_⟩
    rw [abs_exactValue_of_read read, zpow_zero]
    split at some
    · rename_i whole
      have : 0 < m := Nat.pos_of_ne_zero fun zero => some (by rw [zero, Nat.zero_mul])
      have one : (1 : ℚ) ≤ m := Nat.one_le_cast.2 this
      have grown : (1 : ℚ) ≤ 2 ^ e := one_le_zpow₀ one_le_two whole
      nlinarith
    · rename_i fraction
      have unit : 0 < 2 ^ (-e).toNat := Nat.two_pow_pos _
      have least : 2 ^ (-e).toNat ≤ m :=
        Nat.not_lt.1 fun below => some (Nat.div_eq_of_lt below)
      have exponent : e = -((-e).toNat : Int) := by omega
      rw [exponent, zpow_neg, zpow_natCast, ← div_eq_mul_inv, one_le_div (pow_pos two_pos _)]
      exact_mod_cast least
  · exact absurd rfl some

theorem wholePart_eq_floor (x : Float) : wholePart x = ⌊exactValue x⌋₊ := by
  unfold exactValue wholePart
  cases ofFloat x with
  | nan => simp
  | infinite negative => simp
  | finite negative m e =>
    have size : 0 ≤ (m : ℚ) * 2 ^ e := mul_nonneg (Nat.cast_nonneg m) (zpow_nonneg zero_le_two e)
    cases negative with
    | true =>
      refine (Nat.floor_of_nonpos ?_).symm
      simp only [if_true]
      linarith
    | false =>
      have power : ∀ k, Nat.pow 2 k = 2 ^ k := fun _ => rfl
      simp only [Bool.false_eq_true, if_false, one_mul, power]
      split
      · rename_i whole
        have natural : (m : ℚ) * 2 ^ e = (m * 2 ^ e.toNat : Nat) := by
          rw [← Int.toNat_of_nonneg whole, zpow_natCast]
          push_cast
          rfl
        rw [natural, Nat.floor_natCast]
      · have exponent : e = -((-e).toNat : Int) := by omega
        have quotient : (m : ℚ) * 2 ^ e = (m : ℚ) / (2 ^ (-e).toNat : Nat) := by
          rw [exponent, zpow_neg, zpow_natCast, ← div_eq_mul_inv, neg_neg, Int.toNat_natCast]
          push_cast
          rfl
        rw [quotient, Nat.floor_div_eq_div]

theorem wholePart_eq (value : exactValue x = n) : wholePart x = n := by
  rw [wholePart_eq_floor, value, Nat.floor_natCast]

private theorem nearestBits_lt (m : Nat) (e : Int) (inexact : Bool) :
    nearestBits m e inexact < signUnit := by
  have small : nearestBits m e inexact ≤ infinityBits := by
    unfold nearestBits
    split
    · exact Nat.zero_le _
    · exact Nat.min_le_right _ _
  simp only [infinityBits, signUnit] at *
  omega

private theorem wholePart_ofNat_negative (n : Nat) : wholePart (ofNat true n) = 0 := by
  have bits : (UInt64.ofNat (nearestBits n 0 false + signUnit)).toNat
      = nearestBits n 0 false + signUnit := by
    have small := nearestBits_lt n 0 false
    rw [UInt64.toNat_ofNat', Nat.mod_eq_of_lt]
    simp only [signUnit] at *
    omega
  have sign : decide (signUnit ≤ nearestBits n 0 false + signUnit) = true :=
    decide_eq_true (Nat.le_add_left _ _)
  have read := ofFloat_ofBits (UInt64.ofNat (nearestBits n 0 false + signUnit))
  rw [bits, Binary.ofBits, sign] at read
  have float : ofNat true n = Float.ofBits (UInt64.ofNat (nearestBits n 0 false + signUnit)) := rfl
  rw [float, wholePart, read]
  split_ifs <;> rfl

theorem isFinite_of_ceiling (finite : isFinite (ceiling x) = true) : isFinite x = true := by
  unfold ceiling at finite
  split at finite
  · rename_i read
    exact isFinite_of_read read
  · exact finite

theorem Beyond.ceiling (h : Beyond 1 x) (some : wholePart (ceiling x) ≠ 0) :
    Beyond 1 (ceiling x) := by
  obtain ⟨negative, m, e, read, short, least⟩ := exists_read h.finite
  unfold Binary.ceiling at some ⊢
  rw [read] at some ⊢
  simp only at some ⊢
  split
  · exact h
  · rename_i fraction
    rw [if_neg fraction] at some
    cases negative with
    | true => exact absurd (wholePart_ofNat_negative _) some
    | false =>
      have power : Nat.pow 2 (-e).toNat = 2 ^ (-e).toNat := rfl
      have size := h.least
      rw [abs_exactValue_of_read read] at size
      simp only [Bool.false_eq_true, if_false, power]
      have unit : 0 < 2 ^ (-e).toNat := Nat.two_pow_pos _
      -- The quotient rounded up is at least two, since two of the unit are at most the significand.
      have two : 2 ≤ (m + 2 ^ (-e).toNat - 1) / 2 ^ (-e).toNat := by
        have exponent : e = -((-e).toNat : Int) := by omega
        rw [exponent, zpow_neg, zpow_natCast, ← div_eq_mul_inv, le_div_iff₀ (pow_pos two_pos _),
          zpow_one] at size
        have whole : 2 * 2 ^ (-e).toNat ≤ m := by exact_mod_cast size
        rw [Nat.le_div_iff_mul_le unit]
        omega
      have most : (m + 2 ^ (-e).toNat - 1) / 2 ^ (-e).toNat ≤ m := by
        refine Nat.le_of_lt_succ ((Nat.div_lt_iff_lt_mul unit).2 ?_)
        have := Nat.le_mul_of_pos_right m unit
        rw [Nat.succ_mul]
        omega
      generalize (m + 2 ^ (-e).toNat - 1) / 2 ^ (-e).toNat = n at *
      obtain ⟨finite, value⟩ := (exact_ofNat (by omega : 0 < n) (by omega)).1
      refine ⟨finite, ?_⟩
      rw [value, zpow_one, abs_of_nonneg (Nat.cast_nonneg n)]
      exact_mod_cast two

theorem within_roundHalfAway (finite : isFinite x = true) : Within 1024 (roundHalfAway x) := by
  obtain ⟨negative, m, e, read, short, -⟩ := exists_read finite
  unfold roundHalfAway
  rw [read]
  simp only
  split
  · exact within_of_isFinite finite
  · have unit : 0 < 2 ^ (-e).toNat := Nat.two_pow_pos _
    have whole : (m + Nat.pow 2 ((-e).toNat - 1)) / Nat.pow 2 (-e).toNat ≤ 2 ^ 53 := by
      have half : 2 ^ ((-e).toNat - 1) ≤ 2 ^ (-e).toNat :=
        Nat.pow_le_pow_right two_pos (Nat.sub_le _ _)
      have long := Nat.le_mul_of_pos_left m unit
      have most : (m + 2 ^ ((-e).toNat - 1)) / 2 ^ (-e).toNat ≤ m + 1 := by
        refine Nat.div_le_of_le_mul ?_
        rw [Nat.mul_succ]
        omega
      exact most.trans short
    exact (within_ofNat (by decide) (by decide) whole : Within 53 _).mono (by decide)

theorem roundHalfAway_of_not_finite (infinite : isFinite x = false) : roundHalfAway x = x := by
  unfold roundHalfAway
  split
  · rename_i read
    rw [isFinite_of_read read] at infinite
    cases infinite
  · rfl

private theorem isFinite_pack (u : UnpackedFloat) (packable : IsPackable u) :
    isFinite (.ofModel (.pack u)) = u.isFinite := by
  rw [isFinite_eq, toModel_pack u packable]

private theorem mul_not_finite {u v : UnpackedFloat} (h : (u.isFinite && v.isFinite) = false) :
    IsPackable (UnpackedFloat.mul Format.binary64 u v) ∧
      (UnpackedFloat.mul Format.binary64 u v).isFinite = false := by
  cases u <;> cases v <;> first | exact ⟨trivial, rfl⟩ | cases h

theorem isFinite_of_mul (finite : isFinite (x * y) = true) :
    isFinite x = true ∧ isFinite y = true := by
  rw [isFinite_eq x, isFinite_eq y, ← Bool.and_eq_true]
  by_contra infinite
  obtain ⟨packable, result⟩ := mul_not_finite (Bool.eq_false_iff.2 infinite)
  rw [mul_eq, isFinite_pack _ packable, result] at finite
  cases finite

theorem isFinite_of_div (hy : Beyond k y) (finite : isFinite (x / y) = true) :
    isFinite x = true := by
  rw [isFinite_eq]
  cases unpacks hy.finite with
  | zero s read value => exact absurd value hy.nonzero
  | some s m e positive read canonical value =>
    rw [div_eq, read] at finite
    cases top : x.toModel.unpack with
    | notANumber =>
      rw [top] at finite
      exact absurd (finite.symm.trans (isFinite_pack .notANumber trivial)) Bool.noConfusion
    | infinity t =>
      rw [top] at finite
      exact absurd (finite.symm.trans (isFinite_pack (.infinity (t / s)) trivial)) Bool.noConfusion
    | zero t => rfl
    | finite t n f positive => rfl

theorem Beyond.mul {j l : Int} (hx : Beyond j x) (hy : Beyond k y)
    (finite : isFinite (x * y) = true) (le : l ≤ j + k ∧ -1074 ≤ l) : Beyond l (x * y) := by
  refine (rounds_mul hx.finite hy.finite (.inr finite)).beyond ?_ le.2
  rw [abs_mul]
  calc
    (2 : ℚ) ^ l ≤ 2 ^ (j + k) := zpow_le_zpow_right₀ one_le_two le.1
    _ = 2 ^ j * 2 ^ k := zpow_add₀ two_ne_zero _ _
    _ ≤ |exactValue x| * |exactValue y| :=
      mul_le_mul hx.least hy.least (zpow_nonneg zero_le_two _) (abs_nonneg _)

end Texture.Number
