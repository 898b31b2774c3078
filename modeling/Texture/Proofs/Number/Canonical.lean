/- Texture/Proofs/Number/Canonical
   digest: Every finite float has one significand and exponent, and what is packed in that form is
   unpacked and read as it was. -/

import Texture.Proofs.Number.Binary

set_option autoImplicit false
set_option relaxedAutoImplicit false

namespace Texture.Number

namespace Binary

open Float.Model (Format UnpackedFloat)
open Float.Model.UnpackedFloat

/-- A significand and an exponent as a float holds them: all bits are used unless the exponent is
the least one. -/
structure Canonical (m : Nat) (e : Int) : Prop where
  pos : 0 < m
  high : m < 2 * fractionUnit
  small : -1074 ≤ e
  large : e ≤ 971
  full : fractionUnit ≤ m ∨ e = -1074

def IsPackable : UnpackedFloat → Prop
  | .finite _ m e _ => Canonical m e
  | _ => True

def ofUnpacked : UnpackedFloat → Binary
  | .notANumber => .nan
  | .infinity s => .infinite (s == .negative)
  | .zero s => .finite (s == .negative) 0 (-1074)
  | .finite s m e _ => .finite (s == .negative) m e

section

variable (b : BitVec Format.binary64.numBits)

private theorem toNat_unpackExponent :
    (unpackExponent b).toNat = b.toNat / fractionUnit % 2048 := by
  simp [unpackExponent, fractionUnit, Nat.shiftRight_eq_div_pow]

private theorem toNat_unpackMantissa : (unpackMantissa b).toNat = b.toNat % fractionUnit := by
  simp [unpackMantissa, fractionUnit]

private theorem toNat_unpackSign : (unpackSign b).toNat = b.toNat / signUnit := by
  have short : b.toNat < 2 ^ 64 := b.isLt
  simp [unpackSign, signUnit, Nat.shiftRight_eq_div_pow] at *
  omega

private theorem ofBitVec_unpackSign :
    (Sign.ofBitVec (unpackSign b) == .negative) = decide (signUnit ≤ b.toNat) := by
  have bit := toNat_unpackSign b
  have short := b.isLt
  have split : unpackSign b = 0#1 ↔ b.toNat < signUnit := by
    rw [← BitVec.toNat_inj, bit, BitVec.toNat_ofNat, Nat.zero_mod, Nat.div_eq_zero_iff]
    simp [signUnit]
  by_cases low : b.toNat < signUnit
  · rw [Sign.ofBitVec, if_pos (split.2 low), decide_eq_false (by omega)]
    rfl
  · rw [Sign.ofBitVec, if_neg (mt split.1 low), decide_eq_true (by omega)]
    rfl

theorem ofBits_toNat : ofBits b.toNat = ofUnpacked (UnpackedFloat.unpack Format.binary64 b) := by
  have full : unpackExponent b = -1#_ ↔ b.toNat / fractionUnit % 2048 = 2047 := by
    rw [← BitVec.toNat_inj, toNat_unpackExponent]
    rfl
  have least : unpackExponent b = 0#_ ↔ b.toNat / fractionUnit % 2048 = 0 := by
    rw [← BitVec.toNat_inj, toNat_unpackExponent]
    rfl
  have blank : unpackMantissa b = 0#_ ↔ b.toNat % fractionUnit = 0 := by
    rw [← BitVec.toNat_inj, toNat_unpackMantissa]
    rfl
  have bias : ((Format.exponentBias Format.binary64 : Nat) : Int) + (52 : Nat) = 1075 := rfl
  have implicit : (1#1 ++ unpackMantissa b).toNat = b.toNat % fractionUnit + fractionUnit := by
    rw [BitVec.toNat_append, ← Nat.shiftLeft_add_eq_or_of_lt (unpackMantissa b).isLt,
      toNat_unpackMantissa, Nat.shiftLeft_eq]
    simp [fractionUnit]
    omega
  have sign := ofBitVec_unpackSign b
  unfold UnpackedFloat.unpack ofBits
  simp only [full, least, blank]
  split
  · split <;> simp only [ofUnpacked, sign]
  · split
    · rename_i low
      split
      · rename_i none
        simp only [ofUnpacked, sign, none]
      · simp only [ofUnpacked, sign, toNat_unpackMantissa, toNat_unpackExponent, low, bias]
        rfl
    · simp only [ofUnpacked, sign, implicit, toNat_unpackExponent, bias]

theorem isPackable_unpack : IsPackable (UnpackedFloat.unpack Format.binary64 b) := by
  have fraction : b.toNat % fractionUnit < fractionUnit := Nat.mod_lt _ (by decide)
  have field : b.toNat / fractionUnit % 2048 < 2048 := Nat.mod_lt _ (by decide)
  have read := ofBits_toNat b
  cases unpacked : UnpackedFloat.unpack Format.binary64 b with
  | finite s m e positive =>
    rw [unpacked, ofBits] at read
    simp only [ofUnpacked] at read
    split at read
    · split at read <;> cases read
    · split at read
      · obtain ⟨-, rfl, rfl⟩ := Binary.finite.inj read
        exact ⟨positive, by omega, by omega, by omega, .inr rfl⟩
      · obtain ⟨-, rfl, rfl⟩ := Binary.finite.inj read
        exact ⟨positive, by omega, by omega, by omega, .inl (by omega)⟩
  | _ => trivial

end

@[simp] theorem unpackSign_packComponents (s : Sign) (exponent : BitVec 11) (mantissa : BitVec 52) :
    unpackSign (packComponents Format.binary64 s exponent mantissa) = s.toBitVec := by
  have bits := toNat_unpackSign (packComponents Format.binary64 s exponent mantissa)
  have := exponent.isLt
  have := mantissa.isLt
  rw [toNat_packComponents] at bits
  apply BitVec.eq_of_toNat_eq
  simp only [bits, signUnit, fractionUnit] at *
  omega

private theorem ofBitVec_toBitVec (s : Sign) : Sign.ofBitVec s.toBitVec = s := by cases s <;> rfl

theorem unpack_pack {u : UnpackedFloat} (packable : IsPackable u) :
    UnpackedFloat.unpack Format.binary64 (UnpackedFloat.pack Format.binary64 u) = u := by
  cases u with
  | notANumber => rfl
  | infinity s => cases s <;> rfl
  | zero s => cases s <;> rfl
  | finite s m e positive =>
    obtain ⟨-, high, small, large, form⟩ := id packable
    by_cases full : fractionUnit ≤ m
    · have normal : Normal m e := ⟨full, high, small, large⟩
      exact normal.unpack_of_toNat normal.toNat_pack
    -- The bits of a significand that is too short stand without an exponent.
    · have least : e = -1074 := form.resolve_left full
      have short : m.log2 < 52 := (Nat.log2_lt positive.ne').2 (not_le.1 full)
      have bits : UnpackedFloat.pack Format.binary64 (.finite s m e positive)
          = packComponents Format.binary64 s 0#_ (BitVec.ofNat _ m) := by
        have width : Format.mantissaBits Format.binary64 = 53 := rfl
        have bias : Format.exponentBias Format.binary64 = 1023 := rfl
        simp only [pack, width, bias]
        rw [if_neg (by simp; omega), if_neg (by omega)]
      have whole : (BitVec.ofNat 52 m).toNat = m := by
        rw [BitVec.toNat_ofNat, Nat.mod_eq_of_lt (by simp only [fractionUnit] at full; omega)]
      have nonzero : BitVec.ofNat 52 m ≠ 0#52 := by
        intro same
        rw [same] at whole
        exact positive.ne whole
      have finite : 0#11 ≠ -1#11 := by decide
      rw [bits, UnpackedFloat.unpack]
      simp only [unpackExponent_packComponents, unpackMantissa_packComponents,
        unpackSign_packComponents, ofBitVec_toBitVec, nonzero, whole, least, finite, if_false,
        dite_false, if_true]
      rfl

end Binary

open Binary
open Float.Model (UnpackedFloat)

def magnitude : UnpackedFloat → ℚ
  | .finite _ m e _ => m * (2 : ℚ) ^ e
  | _ => 0

theorem ofFloat_eq (x : Float) : ofFloat x = ofUnpacked x.toModel.unpack := ofBits_toNat _

theorem isFinite_eq (x : Float) : isFinite x = x.toModel.unpack.isFinite := by
  rw [isFinite, ofFloat_eq]
  cases x.toModel.unpack <;> rfl

theorem abs_exactValue (x : Float) : |exactValue x| = magnitude x.toModel.unpack := by
  rw [exactValue, ofFloat_eq]
  cases x.toModel.unpack with
  | finite s m e positive =>
    cases s with
    | positive => simp [ofUnpacked, magnitude]
    | negative => simp [ofUnpacked, magnitude]
  | zero s => simp [ofUnpacked, magnitude]
  | _ => simp [ofUnpacked, magnitude]

end Texture.Number
