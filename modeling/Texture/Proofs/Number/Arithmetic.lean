/- Texture/Proofs/Number/Arithmetic
   digest: Sums, differences, products and quotients of finite floats are roundings of the exact
   ones as long as these stay below the greatest power of two. -/

import Texture.Proofs.Number.Rounding

set_option autoImplicit false
set_option relaxedAutoImplicit false

namespace Texture.Number

open Binary
open Float.Model (Format UnpackedFloat)
open Float.Model.UnpackedFloat

inductive Unpacks (x : Float) : Prop
  | zero (s : Sign) (unpacked : x.toModel.unpack = .zero s) (value : exactValue x = 0)
  | some (s : Sign) (m : Nat) (e : Int) (positive : 0 < m)
      (unpacked : x.toModel.unpack = .finite s m e positive) (canonical : Canonical m e)
      (value : exactValue x = (s.apply m : Int) * 2 ^ e)

theorem unpacks {x : Float} (finite : isFinite x = true) : Unpacks x := by
  have packable : IsPackable x.toModel.unpack := isPackable_unpack _
  have read := ofFloat_eq x
  rw [isFinite_eq] at finite
  cases unpacked : x.toModel.unpack with
  | notANumber =>
    rw [unpacked] at finite
    cases finite
  | infinity s =>
    rw [unpacked] at finite
    cases finite
  | zero s =>
    refine .zero s unpacked ?_
    rw [exactValue, read, unpacked]
    simp [ofUnpacked]
  | finite s m e positive =>
    rw [unpacked] at packable
    refine .some s m e positive unpacked packable ?_
    rw [exactValue, read, unpacked]
    cases s with
    | negative => simp [ofUnpacked, Sign.apply]
    | positive => simp [ofUnpacked, Sign.apply]

theorem abs_apply (s : Sign) (m : Nat) : |((s.apply m : Int) : ℚ)| = m := by
  cases s <;> simp [Sign.apply]

section

theorem rounds_zero (s : Sign) : Rounds 0 (.ofModel (.pack (.zero s))) := by
  have read : (Float.ofModel (.pack (.zero s))).toModel.unpack = .zero s :=
    toModel_pack (.zero s) trivial
  have value : |exactValue (.ofModel (.pack (.zero s)))| = 0 := by
    rw [abs_exactValue, read]
    rfl
  have positive : ∀ k : Int, (0 : ℚ) ≤ 2 ^ k := fun k => zpow_nonneg zero_le_two k
  refine ⟨?_, fun k _ _ => value ▸ positive k, fun k _ h => ?_, fun k _ _ => value ▸ positive k⟩
  · rw [isFinite_eq, read]
    rfl
  · rw [value]
    rwa [abs_zero] at h

theorem rounds_finite {s t : Sign} {m : Nat} {e : Int} {positive : 0 < m}
    (canonical : Canonical m e) :
    Rounds ((t.apply m : Int) * 2 ^ e) (.ofModel (.pack (.finite s m e positive))) := by
  have unit : (0 : ℚ) < 2 ^ e := zpow_pos two_pos e
  have nearest : Nearest ((m : ℚ) * 2 ^ e) m e := by
    refine ⟨canonical.small, canonical.high.le, canonical.full.imp_left fun h => ?_, fun k h => ?_,
      fun k h => ?_, fun k h => ?_⟩
    · exact mul_le_mul_of_nonneg_right (Nat.cast_le.2 h) unit.le
    · exact Nat.cast_le.1 (le_of_mul_le_mul_right h unit)
    · exact Nat.cast_le.1 (le_of_mul_le_mul_right h unit)
    · have below := lt_of_mul_lt_mul_right h unit.le
      have : (m : ℚ) < k + 1 := by linarith
      exact Nat.lt_succ_iff.1 (by exact_mod_cast this)
  have same : settle s m e = .finite s m e positive := by
    rw [settle, dif_neg positive.ne', if_pos canonical.high]
  have finite : isFinite (.ofModel (.pack (settle s m e))) = true := by
    rw [same, isFinite_eq, toModel_pack (.finite s m e positive) canonical]
    rfl
  have rounds := nearest.rounds s (mul_nonneg (Nat.cast_nonneg m) unit.le) (.inr finite)
  rw [same] at rounds
  refine rounds.congr ?_
  rw [abs_mul, abs_mul, abs_apply, Nat.abs_cast]

private theorem marks_exact (m : Nat) : Marks (.ofMantissaAndAccuracy m .exact) m := rfl

private theorem log2_mul_two_pow {m : Nat} (some : m ≠ 0) (k : Nat) :
    (m * 2 ^ k).log2 = m.log2 + k := by
  have low := Nat.mul_le_mul_right (2 ^ k) (Nat.log2_self_le some)
  have high := Nat.mul_lt_mul_of_pos_right (Nat.lt_log2_self (n := m)) (Nat.two_pow_pos k)
  refine (Nat.log2_eq_iff (Nat.mul_ne_zero some (Nat.two_pow_pos k).ne')).2 ⟨?_, ?_⟩
  · rwa [Nat.pow_add]
  · rwa [Nat.add_right_comm, Nat.pow_add]

private theorem lengthen (m : Nat) (e : Int) (k : Nat) :
    (m : ℚ) * 2 ^ e = (m * 2 ^ k : Nat) * 2 ^ (e - k) := by
  have power : (2 : ℚ) ^ e = 2 ^ (k : Int) * 2 ^ (e - k) := by
    rw [← zpow_add₀ two_ne_zero, add_sub_cancel]
  rw [power, zpow_natCast, Nat.cast_mul, Nat.cast_pow, Nat.cast_ofNat, mul_assoc]

theorem round_settles (s : Sign) {m : Nat} (some : m ≠ 0) (e : Int) :
    ∃ em t, UnpackedFloat.round Format.binary64 s m e = settle s em.roundedMantissa t ∧
      Marks em (m * 2 ^ e / 2 ^ t) ∧ Nearest (m * 2 ^ e) em.roundedMantissa t := by
  have long : e - (e - roundingExponent m e).toNat
      ≤ roundingExponent (m * 2 ^ (e - roundingExponent m e).toNat)
        (e - (e - roundingExponent m e).toNat) := by
    have length := log2_mul_two_pow some (e - roundingExponent m e).toNat
    unfold roundingExponent at *
    omega
  rw [UnpackedFloat.round, targetExponent_eq, decreaseExponent]
  simp only [Nat.shiftLeft_eq]
  rw [lengthen m e (e - roundingExponent m e).toNat]
  generalize m * 2 ^ (e - roundingExponent m e).toNat = n at *
  generalize e - (e - roundingExponent m e).toNat = f at *
  obtain ⟨em, shifted, near⟩ := shift_marks (marks_exact n) long
  obtain ⟨high, low⟩ := shifted_size (marks_exact n) long
  have nearest := nearest_rounded near (le_max_right _ _) high low
  refine ⟨em, _, roundWithAccuracy_eq shifted nearest.short nearest.small, ?_, nearest⟩
  rwa [mul_div_assoc, ← zpow_sub₀ two_ne_zero]

private theorem rounds_round {s : Sign} {m : Nat} {e : Int} (some : m ≠ 0)
    (room : m * (2 : ℚ) ^ e ≤ 2 ^ (1023 : Int)) :
    Rounds (m * 2 ^ e) (.ofModel (.pack (UnpackedFloat.round Format.binary64 s m e))) := by
  obtain ⟨em, t, settled, -, nearest⟩ := round_settles s some e
  rw [settled]
  exact nearest.rounds s (mul_nonneg (Nat.cast_nonneg m) (zpow_nonneg zero_le_two e)) (.inl room)

private theorem rounds_normalize {z e : Int} {s : Sign}
    (room : |(z : ℚ) * 2 ^ e| ≤ 2 ^ (1023 : Int)) :
    Rounds (z * 2 ^ e) (.ofModel (.pack (UnpackedFloat.normalize Format.binary64 z e s))) := by
  have unit : (0 : ℚ) < 2 ^ e := zpow_pos two_pos e
  have magnitude : |(z : ℚ) * 2 ^ e| = (z.natAbs : ℚ) * 2 ^ e := by
    rw [abs_mul, abs_of_pos unit, ← Int.cast_abs, ← Int.natCast_natAbs, Int.cast_natCast]
  have same : |(z.natAbs : ℚ) * 2 ^ e| = |(z : ℚ) * 2 ^ e| := by
    rw [magnitude, abs_of_nonneg (mul_nonneg (Nat.cast_nonneg _) unit.le)]
  rw [magnitude] at room
  rcases lt_trichotomy z 0 with below | rfl | above
  · have size : (-z).toNat = z.natAbs := by omega
    have order : compare z 0 = .lt := compare_lt_iff_lt.2 below
    simp only [UnpackedFloat.normalize, order, size]
    exact (rounds_round (by omega) room).congr same
  · have nothing : UnpackedFloat.normalize Format.binary64 0 e s = .zero s := rfl
    rw [nothing, Int.cast_zero, zero_mul]
    exact rounds_zero s
  · have size : z.toNat = z.natAbs := by omega
    have order : compare z 0 = .gt := compare_gt_iff_gt.2 above
    simp only [UnpackedFloat.normalize, order, size]
    exact (rounds_round (by omega) room).congr same

private theorem decreaseExponent_value {s : Sign} {m : Nat} {e t : Int} (le : t ≤ e) :
    ((s.apply m : Int) : ℚ) * 2 ^ e = (s.apply (decreaseExponent m e t).1 : Int) * 2 ^ t := by
  rw [decreaseExponent, Nat.shiftLeft_eq, two_zpow_split le, ← mul_assoc]
  congr 1
  cases s <;> simp [Sign.apply]

end

section

variable {x y : Float}

private theorem add_eq : x + y = .ofModel
    (.pack (UnpackedFloat.add Format.binary64 x.toModel.unpack y.toModel.unpack)) := rfl

private theorem sub_eq : x - y = .ofModel
    (.pack (UnpackedFloat.sub Format.binary64 x.toModel.unpack y.toModel.unpack)) := rfl

theorem mul_eq : x * y = .ofModel
    (.pack (UnpackedFloat.mul Format.binary64 x.toModel.unpack y.toModel.unpack)) := rfl

theorem div_eq : x / y = .ofModel
    (.pack (UnpackedFloat.div Format.binary64 x.toModel.unpack y.toModel.unpack)) := rfl

theorem add_normalize {s t : Sign} {m n : Nat} {e f : Int} {positive : 0 < m} {positive' : 0 < n}
    (read : x.toModel.unpack = .finite s m e positive)
    (read' : y.toModel.unpack = .finite t n f positive')
    (value : exactValue x = (s.apply m : Int) * 2 ^ e)
    (value' : exactValue y = (t.apply n : Int) * 2 ^ f) :
    ∃ (z g : Int), x + y = .ofModel
        (.pack (UnpackedFloat.normalize Format.binary64 z g .positive)) ∧
      exactValue x + exactValue y = z * 2 ^ g := by
  refine ⟨s.apply (decreaseExponent m e (min e f)).1 + t.apply (decreaseExponent n f (min e f)).1,
    min e f, ?_, ?_⟩
  · rw [add_eq, read, read', UnpackedFloat.add]
  · rw [value, value', decreaseExponent_value (min_le_left e f),
      decreaseExponent_value (min_le_right e f), Int.cast_add, add_mul]

theorem rounds_add (hx : isFinite x = true) (hy : isFinite y = true)
    (room : |exactValue x + exactValue y| ≤ 2 ^ (1023 : Int)) :
    Rounds (exactValue x + exactValue y) (x + y) := by
  cases unpacks hx with
  | zero s read value =>
    cases unpacks hy with
    | zero t read' value' =>
      rw [add_eq, read, read', value, value', add_zero, UnpackedFloat.add]
      split
      · exact rounds_zero _
      · exact rounds_zero _
    | some t n f positive read' canonical value' =>
      rw [add_eq, read, read', value, value', zero_add]
      exact rounds_finite canonical
  | some s m e positive read canonical value =>
    cases unpacks hy with
    | zero t read' value' =>
      rw [add_eq, read, read', value, value', add_zero]
      exact rounds_finite canonical
    | some t n f positive' read' canonical' value' =>
      obtain ⟨z, g, result, sum⟩ := add_normalize read read' value value'
      rw [sum] at room ⊢
      rw [result]
      exact rounds_normalize room

theorem rounds_sub (hx : isFinite x = true) (hy : isFinite y = true)
    (room : |exactValue x - exactValue y| ≤ 2 ^ (1023 : Int)) :
    Rounds (exactValue x - exactValue y) (x - y) := by
  rw [sub_eq]
  cases unpacks hx with
  | zero s read value =>
    cases unpacks hy with
    | zero t read' value' =>
      rw [read, read', value, value', sub_zero, UnpackedFloat.sub]
      split
      · exact rounds_zero _
      · exact rounds_zero _
    | some t n f positive read' canonical value' =>
      rw [read, read', value, value', zero_sub]
      exact (rounds_finite canonical).congr (abs_neg _).symm
  | some s m e positive read canonical value =>
    cases unpacks hy with
    | zero t read' value' =>
      rw [read, read', value, value', sub_zero]
      exact rounds_finite canonical
    | some t n f positive' read' canonical' value' =>
      have difference : exactValue x - exactValue y =
          ((s.apply (decreaseExponent m e (min e f)).1 -
            t.apply (decreaseExponent n f (min e f)).1 : Int) : ℚ) * 2 ^ min e f := by
        rw [value, value', decreaseExponent_value (min_le_left e f),
          decreaseExponent_value (min_le_right e f), Int.cast_sub, sub_mul]
      rw [difference] at room ⊢
      rw [read, read', UnpackedFloat.sub]
      exact rounds_normalize room

private theorem long_mul {m n : Nat} {e f : Int} (h : Canonical m e) (h' : Canonical n f) :
    e + f ≤ roundingExponent (m * n) (e + f) := by
  have positive : m * n ≠ 0 := (Nat.mul_pos h.pos h'.pos).ne'
  have bits : 2 ^ 52 ≤ m * n → 52 ≤ (m * n).log2 := (Nat.le_log2 positive).2
  rw [roundingExponent]
  rcases h.full with full | least
  · have := bits (full.trans (Nat.le_mul_of_pos_right m h'.pos))
    omega
  · rcases h'.full with full | least'
    · have := bits (full.trans (Nat.le_mul_of_pos_left n h.pos))
      omega
    · omega

theorem rounds_mul (hx : isFinite x = true) (hy : isFinite y = true)
    (fits : |exactValue x * exactValue y| ≤ 2 ^ (1023 : Int) ∨ isFinite (x * y) = true) :
    Rounds (exactValue x * exactValue y) (x * y) := by
  rw [mul_eq] at fits ⊢
  cases unpacks hx with
  | zero s read value =>
    cases unpacks hy with
    | zero t read' value' =>
      rw [read, read', value, zero_mul]
      exact rounds_zero _
    | some t n f positive read' canonical value' =>
      rw [read, read', value, zero_mul]
      exact rounds_zero _
  | some s m e positive read canonical value =>
    cases unpacks hy with
    | zero t read' value' =>
      rw [read, read', value', mul_zero]
      exact rounds_zero _
    | some t n f positive' read' canonical' value' =>
      have size : |exactValue x * exactValue y| = ((m * n : Nat) : ℚ) * 2 ^ (e + f) := by
        rw [value, value', abs_mul, abs_mul, abs_mul, abs_apply, abs_apply,
          abs_of_pos (zpow_pos two_pos e), abs_of_pos (zpow_pos two_pos f),
          zpow_add₀ two_ne_zero, Nat.cast_mul]
        ring
      have long : e + f ≤ roundingExponent (m * n) (e + f) := long_mul canonical canonical'
      rw [size, read, read', UnpackedFloat.mul] at fits
      rw [read, read', UnpackedFloat.mul]
      refine (rounds_roundWithAccuracy (marks_exact _) long fits).congr ?_
      rw [← size, abs_abs]

private theorem marks_quotient {a b : Nat} (positive : 0 < b) :
    Marks (.ofMantissaAndAccuracy (a / b) (accuracyOfFraction (a % b) b)) ((a : ℚ) / b) := by
  have below : a % b < b := Nat.mod_lt a positive
  have divisor : (0 : ℚ) < b := Nat.cast_pos.2 positive
  have split : (a : ℚ) / b = (a / b : Nat) + ((a % b : Nat) : ℚ) / b := by
    have whole : (b : ℚ) * (a / b : Nat) + (a % b : Nat) = a := by
      exact_mod_cast Nat.div_add_mod a b
    rw [div_eq_iff divisor.ne', add_mul, div_mul_cancel₀ _ divisor.ne', mul_comm, whole]
  rw [split]
  generalize a / b = d at *
  generalize a % b = r at *
  by_cases exact : r = 0
  · rw [exact]
    simp [accuracyOfFraction, ExtendedMantissa.ofMantissaAndAccuracy, Marks]
  · have above : (0 : ℚ) < r / b := div_pos (Nat.cast_pos.2 (Nat.pos_of_ne_zero exact)) divisor
    have within : (r : ℚ) / b < 1 := (div_lt_one divisor).2 (Nat.cast_lt.2 below)
    rw [accuracyOfFraction, if_neg exact]
    -- The remainder against one half of the divisor.
    rcases lt_trichotomy (2 * r) b with less | same | more
    · have order : compare (2 * r) b = .lt := compare_lt_iff_lt.2 less
      have : (2 * r : ℚ) < b := by exact_mod_cast less
      rw [order]
      refine ⟨by linarith, ?_⟩
      rw [add_lt_add_iff_left, div_lt_div_iff₀ divisor two_pos]
      linarith
    · have order : compare (2 * r) b = .eq := compare_eq_iff_eq.2 same
      have : (2 * r : ℚ) = b := by exact_mod_cast same
      rw [order]
      have half : (r : ℚ) / b = 1 / 2 := by
        rw [div_eq_div_iff divisor.ne' two_ne_zero]
        linarith
      rw [half]
      rfl
    · have order : compare (2 * r) b = .gt := compare_gt_iff_gt.2 more
      have : (b : ℚ) < 2 * r := by exact_mod_cast more
      rw [order]
      refine ⟨?_, by linarith⟩
      rw [add_lt_add_iff_left, div_lt_div_iff₀ two_pos divisor]
      linarith

def quotientExponent (m : Nat) (e : Int) (n : Nat) (f : Int) : Int :=
  min (e - f) (Format.binary64.targetExponent
    (Float.Model.totalExponent m e - Float.Model.totalExponent n f))

private theorem long_div {m n : Nat} {e f : Int} (some : 0 < m) (some' : 0 < n) :
    quotientExponent m e n f ≤ roundingExponent
      (m * 2 ^ (e - f - quotientExponent m e n f).toNat / n) (quotientExponent m e n f) := by
  have width : Format.mantissaBits Format.binary64 = 53 := rfl
  have least : Format.minExponent Format.binary64 = -1074 := rfl
  have lowered : quotientExponent m e n f
      = min (e - f) (max (m.log2 + e - (n.log2 + f) - 53) (-1074)) := by
    rw [quotientExponent, Format.targetExponent, Float.Model.totalExponent,
      Float.Model.totalExponent, width, least]
    omega
  generalize quotientExponent m e n f = t at *
  by_cases small : t ≤ -1074
  · rw [roundingExponent]
    omega
  · have bits : 53 + n.log2 ≤ m.log2 + (e - f - t).toNat := by omega
    have full : 2 ^ 52 ≤ m * 2 ^ (e - f - t).toNat / n := by
      rw [Nat.le_div_iff_mul_le some']
      calc
        2 ^ 52 * n ≤ 2 ^ 52 * 2 ^ (n.log2 + 1) := Nat.mul_le_mul_left _ Nat.lt_log2_self.le
        _ = 2 ^ (53 + n.log2) := by rw [← Nat.pow_add]; congr 1; omega
        _ ≤ 2 ^ (m.log2 + (e - f - t).toNat) := Nat.pow_le_pow_right two_pos bits
        _ = 2 ^ m.log2 * 2 ^ (e - f - t).toNat := Nat.pow_add _ _ _
        _ ≤ m * 2 ^ (e - f - t).toNat := Nat.mul_le_mul_right _ (Nat.log2_self_le some.ne')
    have long := (Nat.le_log2 (Nat.two_pow_pos 52 |>.trans_le full).ne').2 full
    rw [roundingExponent]
    omega

theorem rounds_div (hx : isFinite x = true) (hy : isFinite y = true) (nonzero : exactValue y ≠ 0)
    (room : |exactValue x / exactValue y| ≤ 2 ^ (1023 : Int)) :
    Rounds (exactValue x / exactValue y) (x / y) := by
  rw [div_eq]
  cases unpacks hy with
  | zero t read' value' => exact absurd value' nonzero
  | some t n f positive' read' canonical' value' =>
    cases unpacks hx with
    | zero s read value =>
      rw [read, read', value, zero_div]
      exact rounds_zero _
    | some s m e positive read canonical value =>
      have lowered : quotientExponent m e n f ≤ e - f := min_le_left _ _
      have size : |exactValue x / exactValue y|
          = ((m * 2 ^ (e - f - quotientExponent m e n f).toNat : Nat) : ℚ) / n
            * 2 ^ quotientExponent m e n f := by
        rw [value, value', abs_div, abs_mul, abs_mul, abs_apply, abs_apply,
          abs_of_pos (zpow_pos two_pos e), abs_of_pos (zpow_pos two_pos f), mul_div_mul_comm,
          ← zpow_sub₀ two_ne_zero, two_zpow_split lowered, Nat.cast_mul]
        ring
      rw [size] at room
      rw [read, read', UnpackedFloat.div]
      simp only [divCore, Nat.shiftLeft_eq]
      refine (rounds_roundWithAccuracy (marks_quotient positive') (long_div positive positive')
        (.inl room)).congr ?_
      rw [← size, abs_abs]

end

end Texture.Number
