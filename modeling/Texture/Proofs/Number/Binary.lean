/- Texture/Proofs/Number/Binary
   digest: Floats of full precision stand for what they read as: whole numbers are exact, and so are
   their negation and doubling. -/

import Mathlib
import Texture.Number.Binary

set_option autoImplicit false
set_option relaxedAutoImplicit false

namespace Texture.Number

namespace Binary

open Float.Model (Format UnpackedFloat)
open Float.Model.UnpackedFloat

/-- A significand of all bits, with an exponent that is neither too small nor too large for it. -/
structure Normal (m : Nat) (e : Int) : Prop where
  low : fractionUnit ≤ m
  high : m < 2 * fractionUnit
  small : -1074 ≤ e
  large : e ≤ 971

variable {s : Sign} {m : Nat} {e : Int}

def normalBits (s : Sign) (m : Nat) (e : Int) : Nat :=
  s.toBitVec.toNat * signUnit + (e + 1075).toNat * fractionUnit + (m - fractionUnit)

namespace Normal

private theorem pos (normal : Normal m e) : 0 < m := Nat.lt_of_lt_of_le (by decide) normal.low

def float (s : Sign) (normal : Normal m e) : Float := .ofModel (.pack (.finite s m e normal.pos))

private theorem succ (normal : Normal m e) (room : e < 971) : Normal m (e + 1) := by
  obtain ⟨low, high, small, -⟩ := normal
  exact ⟨low, high, by omega, by omega⟩

private theorem log2_shifted (normal : Normal m e) (k : Nat) : (m * 2 ^ k).log2 = 52 + k := by
  have low := Nat.mul_le_mul_right (2 ^ k) normal.low
  have high := Nat.mul_lt_mul_of_pos_right normal.high (Nat.two_pow_pos k)
  have power : (2 : Nat) ^ (52 + k) = fractionUnit * 2 ^ k := Nat.pow_add 2 52 k
  have positive : 0 < m * 2 ^ k := Nat.mul_pos normal.pos (Nat.two_pow_pos k)
  refine (Nat.log2_eq_iff positive.ne').mpr ⟨by rwa [power], ?_⟩
  rwa [Nat.pow_succ, power, Nat.mul_right_comm, Nat.mul_comm fractionUnit 2]

end Normal

theorem toNat_packComponents (s : Sign) (exponent : BitVec 11) (mantissa : BitVec 52) :
    (packComponents Format.binary64 s exponent mantissa).toNat =
      s.toBitVec.toNat * signUnit + exponent.toNat * fractionUnit + mantissa.toNat := by
  rw [packComponents, BitVec.toNat_append, ← Nat.shiftLeft_add_eq_or_of_lt mantissa.isLt,
    BitVec.toNat_append, ← Nat.shiftLeft_add_eq_or_of_lt exponent.isLt, Nat.shiftLeft_eq,
    Nat.shiftLeft_eq, signUnit, fractionUnit]
  omega

private theorem normalBits_lt (normal : Normal m e) : normalBits s m e < 2 ^ 64 := by
  obtain ⟨low, high, small, large⟩ := normal
  have sign : s.toBitVec.toNat < 2 := BitVec.isLt _
  simp only [normalBits, fractionUnit, signUnit] at *
  omega

namespace Normal

theorem toNat_pack (normal : Normal m e) :
    (pack Format.binary64 (.finite s m e normal.pos)).toNat = normalBits s m e := by
  obtain ⟨low, high, small, large⟩ := id normal
  have length : m.log2 = 52 := by simpa using normal.log2_shifted 0
  have bits : Format.mantissaBits Format.binary64 = 53 := rfl
  have bias : Format.exponentBias Format.binary64 = 1023 := rfl
  simp only [pack, length, bits, bias]
  rw [if_neg (by simp; omega), if_pos (by trivial), toNat_packComponents, normalBits,
    BitVec.toNat_ofNat, BitVec.toNat_ofNat]
  simp only [fractionUnit] at *
  omega

theorem unpack_of_toNat (normal : Normal m e) {b : BitVec Format.binary64.numBits}
    (bits : b.toNat = normalBits s m e) :
    UnpackedFloat.unpack Format.binary64 b = .finite s m e normal.pos := by
  obtain ⟨low, high, small, large⟩ := id normal
  have bit : s.toBitVec.toNat < 2 := BitVec.isLt _
  have mantissa : (unpackMantissa b).toNat = m - fractionUnit := by
    simp [unpackMantissa, bits, normalBits, fractionUnit, signUnit] at *
    omega
  have field : (unpackExponent b).toNat = (e + 1075).toNat := by
    simp [unpackExponent, bits, normalBits, fractionUnit, signUnit, Nat.shiftRight_eq_div_pow] at *
    omega
  have sign : unpackSign b = s.toBitVec := by
    apply BitVec.eq_of_toNat_eq
    simp [unpackSign, bits, normalBits, fractionUnit, signUnit, Nat.shiftRight_eq_div_pow] at *
    omega
  have finite : unpackExponent b ≠ -1#_ := by
    intro same
    have full : (unpackExponent b).toNat = 2047 := by rw [same]; rfl
    omega
  have nonzero : unpackExponent b ≠ 0#_ := by
    intro same
    have none : (unpackExponent b).toNat = 0 := by rw [same]; rfl
    omega
  have whole : (1#1 ++ unpackMantissa b).toNat = m := by
    rw [BitVec.toNat_append, ← Nat.shiftLeft_add_eq_or_of_lt (unpackMantissa b).isLt, mantissa,
      Nat.shiftLeft_eq]
    simp only [fractionUnit, BitVec.toNat_ofNat] at *
    omega
  have exponent :
      ((unpackExponent b).toNat : Int) - (Format.exponentBias Format.binary64 + 52) = e := by
    have bias : Format.exponentBias Format.binary64 = 1023 := rfl
    rw [field, bias]
    omega
  rw [UnpackedFloat.unpack]
  simp only [finite, nonzero, if_false, sign, UnpackedFloat.finite.injEq]
  refine ⟨?_, whole, exponent⟩
  cases s <;> rfl

private theorem ofBits_normalBits (normal : Normal m e) :
    ofBits (normalBits s m e) = .finite (s == .negative) m e := by
  obtain ⟨low, high, small, large⟩ := normal
  have field : normalBits s m e / fractionUnit % 2048 = (e + 1075).toNat := by
    cases s <;> simp [normalBits, fractionUnit, signUnit, Sign.toBitVec] at * <;> omega
  have fraction : normalBits s m e % fractionUnit + fractionUnit = m := by
    cases s <;> simp [normalBits, fractionUnit, signUnit, Sign.toBitVec] at * <;> omega
  have exponent : ((e + 1075).toNat : Int) - 1075 = e := by omega
  have sign : decide (signUnit ≤ normalBits s m e) = (s == .negative) := by
    cases s with
    | positive =>
      refine decide_eq_false ?_
      simp [normalBits, fractionUnit, signUnit, Sign.toBitVec] at *
      omega
    | negative =>
      refine decide_eq_true ?_
      simp [normalBits, fractionUnit, signUnit, Sign.toBitVec] at *
      omega
  rw [ofBits, field, fraction, if_neg (by omega), if_neg (by omega), exponent, sign]

private theorem unpack_float (normal : Normal m e) :
    (normal.float s).toModel.unpack = .finite s m e normal.pos :=
  normal.unpack_of_toNat normal.toNat_pack

private theorem ofFloat_float (normal : Normal m e) :
    ofFloat (normal.float s) = .finite (s == .negative) m e := by
  have bits : (normal.float s).toBits.toNat = normalBits s m e := normal.toNat_pack
  rw [ofFloat, bits, normal.ofBits_normalBits]

private theorem ofBits_float (normal : Normal m e) :
    Float.ofBits (UInt64.ofNat (normalBits s m e)) = normal.float s := by
  have bits : (UInt64.ofNat (normalBits s m e)).toBitVec.toNat = normalBits s m e := by
    rw [UInt64.toNat_toBitVec, UInt64.toNat_ofNat', Nat.mod_eq_of_lt (normalBits_lt normal)]
  rw [Float.ofBits, Float.Model.ofBits, normal.unpack_of_toNat bits]
  rfl

private theorem neg_float (normal : Normal m e) : -normal.float s = normal.float (-s) := by
  have unfolded : -normal.float s = .ofModel (.pack (normal.float s).toModel.unpack.neg) := rfl
  rw [unfolded, normal.unpack_float]
  rfl

end Normal

theorem shiftRight_exact (m k : Nat) :
    (⟨m * 2 ^ k, false, false⟩ : ExtendedMantissa) >>> k = ⟨m, false, false⟩ := by
  have shift (em : ExtendedMantissa) (k : Nat) :
      em >>> k = Nat.repeat ExtendedMantissa.shiftRightOne k em := rfl
  induction k generalizing m with
  | zero => simp [shift, Nat.repeat]
  | succ k ih =>
    have regroup : m * 2 ^ (k + 1) = (m * 2) * 2 ^ k := by ring
    rw [shift, Nat.repeat, ← shift, regroup, ih]
    simp [ExtendedMantissa.shiftRightOne]

namespace Normal

private theorem shift (normal : Normal m e) (k : Nat) :
    shiftToTargetExponent Format.binary64 (m * 2 ^ k) (e - k) .exact = (⟨m, false, false⟩, e) := by
  have small := normal.small
  have bits : Format.mantissaBits Format.binary64 = 53 := rfl
  have least : Format.minExponent Format.binary64 = -1074 := rfl
  have target :
      Format.binary64.targetExponent (Float.Model.totalExponent (m * 2 ^ k) (e - k)) = e := by
    rw [Format.targetExponent, Float.Model.totalExponent, normal.log2_shifted, bits, least]
    omega
  have amount : (e - (e - k)).toNat = k := by omega
  simp only [shiftToTargetExponent, target, shiftToExponent, amount,
    ExtendedMantissa.ofMantissaAndAccuracy, shiftRight_exact]
  simp

private theorem two_mul_float (normal : Normal m e) (room : e < 971) :
    2.0 * normal.float s = (normal.succ room).float s := by
  have two : Normal fractionUnit (-51) := ⟨by decide, by decide, by decide, by decide⟩
  have literal : (2.0 : Float) = two.float .positive := rfl
  have unfolded : ∀ x y : Float, x * y = .ofModel
      (.pack (UnpackedFloat.mul Format.binary64 x.toModel.unpack y.toModel.unpack)) :=
    fun _ _ => rfl
  have sign : Sign.positive * s = s := by cases s <;> rfl
  have product : fractionUnit * m = m * 2 ^ 52 := Nat.mul_comm _ _
  have sum : -51 + e = e + 1 - (52 : Nat) := by omega
  have once := (normal.succ room).shift 52
  have twice := (normal.succ room).shift 0
  rw [Nat.pow_zero, Nat.mul_one, Int.natCast_zero, Int.sub_zero] at twice
  have rounded : ExtendedMantissa.roundedMantissa ⟨m, false, false⟩ = m := rfl
  rw [literal, unfolded, two.unpack_float, normal.unpack_float, UnpackedFloat.mul, sign, float]
  congr 2
  rw [product, sum, roundWithAccuracy, once]
  simp only [rounded, twice, normal.pos.ne', dif_neg, not_false_eq_true]

end Normal

private theorem ofNat_float {n : Nat} (low : 0 < n) (high : n < 2 * fractionUnit) :
    ∃ normal : Normal (n * 2 ^ (52 - n.log2)) (n.log2 - 52),
      ofNat false n = normal.float .positive := by
  have short : n.log2 < 53 := (Nat.log2_lt low.ne').mpr (by simpa [fractionUnit] using high)
  have split : (2 : Nat) ^ n.log2 * 2 ^ (52 - n.log2) = fractionUnit := by
    rw [← Nat.pow_add, Nat.add_sub_cancel' (by omega)]
    rfl
  have normal : Normal (n * 2 ^ (52 - n.log2)) (n.log2 - 52) := by
    refine ⟨?_, ?_, by omega, by omega⟩
    · rw [← split]
      exact Nat.mul_le_mul_right _ (Nat.log2_self_le low.ne')
    · calc
        n * 2 ^ (52 - n.log2) < 2 ^ (n.log2 + 1) * 2 ^ (52 - n.log2) :=
          Nat.mul_lt_mul_of_pos_right Nat.lt_log2_self (Nat.two_pow_pos _)
        _ = 2 * fractionUnit := by
          rw [Nat.pow_succ, Nat.mul_comm (2 ^ n.log2) 2, Nat.mul_assoc, split]
  have bits : nearestBits n 0 false =
      normalBits .positive (n * 2 ^ (52 - n.log2)) (n.log2 - 52) := by
    have unit : max ((0 : Int) + (n.log2 : Int) - 52) (-1074) = n.log2 - 52 := by omega
    have drop : ((0 : Int) - (n.log2 - 52)).toNat = 52 - n.log2 := by omega
    have below : ((n.log2 : Int) - 52 + 1074).toNat = n.log2 + 1022 := by omega
    have field : ((n.log2 : Int) - 52 + 1075).toNat = n.log2 + 1023 := by omega
    have sign : Sign.positive.toBitVec.toNat = 0 := rfl
    have power : Nat.pow 2 (52 - n.log2) = 2 ^ (52 - n.log2) := rfl
    rw [nearestBits, if_neg low.ne', normalBits]
    simp only [unit, drop]
    rw [if_pos (by omega), field, below, sign, power]
    -- The lowest bit of the exponent field is the highest one of the significand.
    have high := normal.high
    obtain ⟨rest, sum⟩ := Nat.exists_eq_add_of_le normal.low
    rw [sum] at high ⊢
    rw [Nat.add_sub_cancel_left, Nat.min_eq_left]
    · ring
    · simp only [fractionUnit, infinityBits] at *
      omega
  refine ⟨normal, ?_⟩
  simp only [ofNat, nearest, Bool.false_eq_true, if_false, bits, normal.ofBits_float]

private theorem Normal.isFinite_float (normal : Normal m e) : isFinite (normal.float s) = true := by
  rw [isFinite, normal.ofFloat_float]

end Binary

open Binary Float.Model.UnpackedFloat

/-- The exact value of a float; what is infinite or not a number counts as zero. -/
def exactValue (x : Float) : ℚ :=
  match ofFloat x with
  | .finite negative significand exponent =>
    (if negative then -1 else 1) * significand * (2 : ℚ) ^ exponent
  | _ => 0

theorem exactValue_zero : exactValue 0.0 = 0 := by
  have read : ofFloat 0.0 = .finite false 0 (-1074) := by decide
  rw [exactValue, read]
  norm_num

theorem exactValue_one : exactValue 1.0 = 1 := by
  have read : ofFloat 1.0 = .finite false 4503599627370496 (-52) := by decide
  rw [exactValue, read]
  norm_num

private theorem exactValue_float {s : Sign} {m : Nat} {e : Int} (normal : Normal m e) :
    exactValue (normal.float s) = (if s == .negative then -1 else 1) * m * (2 : ℚ) ^ e := by
  rw [exactValue, normal.ofFloat_float]

structure Exact (x : Float) (q : ℚ) : Prop where
  finite : isFinite x = true
  value : exactValue x = q

theorem Exact.of_read {x : Float} {q : ℚ} {negative : Bool} {m : Nat} {e : Int}
    (read : ofFloat x = .finite negative m e)
    (value : (if negative then -1 else 1) * m * (2 : ℚ) ^ e = q) : Exact x q := by
  refine ⟨?_, ?_⟩
  · rw [Binary.isFinite, read]
  · rw [exactValue, read]
    exact value

private theorem Exact.of_float {x : Float} {s : Sign} {m : Nat} {e : Int} (normal : Normal m e)
    (same : x = normal.float s) :
    Exact x ((if s == .negative then -1 else 1) * m * (2 : ℚ) ^ e) := by
  rw [same]
  exact ⟨normal.isFinite_float, exactValue_float normal⟩

theorem exact_ofNat {n : Nat} (low : 0 < n) (high : n < 2 * fractionUnit) :
    Exact (ofNat false n) n ∧ Exact (-ofNat false n) (-n) ∧ Exact (2.0 * ofNat false n) (2 * n) := by
  obtain ⟨normal, same⟩ := ofNat_float low high
  have short : n.log2 < 53 := (Nat.log2_lt low.ne').mpr (by simpa [fractionUnit] using high)
  have power : (2 : ℚ) ^ ((n.log2 : Int) - 52) = ((2 : ℚ) ^ (52 - n.log2))⁻¹ := by
    rw [← zpow_natCast, ← zpow_neg]
    congr 1
    omega
  have value : ((n * 2 ^ (52 - n.log2) : Nat) : ℚ) * (2 : ℚ) ^ ((n.log2 : Int) - 52) = n := by
    rw [power, Nat.cast_mul, Nat.cast_pow, Nat.cast_ofNat]
    field_simp
  have room : (n.log2 : Int) - 52 < 971 := by omega
  have flipped : -ofNat false n = normal.float .negative := by
    rw [same, normal.neg_float]
    rfl
  have twice : 2.0 * ofNat false n = (normal.succ room).float .positive := by
    rw [same, normal.two_mul_float room]
  have plain := Exact.of_float normal same
  have negated := Exact.of_float normal flipped
  have doubled := Exact.of_float (normal.succ room) twice
  have positive : (Sign.positive == Sign.negative) = false := rfl
  have negative : (Sign.negative == Sign.negative) = true := rfl
  rw [positive, if_neg Bool.false_ne_true, one_mul, value] at plain
  rw [negative, if_pos rfl, neg_one_mul, neg_mul, value] at negated
  rw [positive, if_neg Bool.false_ne_true, one_mul, zpow_add_one₀ two_ne_zero, ← mul_assoc, value,
    mul_comm] at doubled
  exact ⟨plain, negated, doubled⟩

end Texture.Number
