/- Texture/Proofs/Number/Position
   digest: The total order of bit patterns is the order of the finite floats they stand for; whole
   numbers with a sign, and halves rounded away from zero. -/

import Texture.Proofs.Number.Whole
import Mathlib.Data.Rat.Floor

set_option autoImplicit false
set_option relaxedAutoImplicit false

namespace Texture.Number

open Binary

section

variable {negative : Bool} {m : Nat} {e : Int} {p q : Position}

/-- What a reading of bits says about them: behind the sign stand the exponent, counted from the
least one, and the significand, whose first bit runs into the exponent. -/
structure Spelled (bits : Nat) (negative : Bool) (m : Nat) (e : Int) : Prop where
  sign : negative = decide (signUnit ≤ bits)
  rest : bits % signUnit = (e + 1074).toNat * fractionUnit + m
  high : m < 2 * fractionUnit
  small : -1074 ≤ e
  large : e ≤ 971
  full : fractionUnit ≤ m ∨ e = -1074

private theorem spelled_of_ofBits {bits : Nat} (read : Binary.ofBits bits = .finite negative m e) :
    Spelled bits negative m e := by
  have fraction : bits % fractionUnit < fractionUnit := Nat.mod_lt _ (by decide)
  have split : bits % signUnit = bits / fractionUnit % 2048 * fractionUnit + bits % fractionUnit := by
    simp only [signUnit, fractionUnit]
    omega
  have field : bits / fractionUnit % 2048 < 2048 := Nat.mod_lt _ (by decide)
  unfold Binary.ofBits at read
  simp only at read
  generalize bits / fractionUnit % 2048 = f at *
  generalize bits % fractionUnit = r at *
  split at read
  · split at read <;> cases read
  · rename_i finite
    split at read
    · rename_i subnormal
      cases read
      refine ⟨rfl, ?_, by omega, le_rfl, by decide, .inr rfl⟩
      rw [split, subnormal]
      rfl
    · cases read
      refine ⟨rfl, ?_, by omega, by omega, by omega, .inl (Nat.le_add_left _ _)⟩
      have least : f = ((f : Int) - 1075 + 1074).toNat + 1 := by omega
      rw [split]
      generalize ((f : Int) - 1075 + 1074).toNat = g at *
      rw [least, Nat.succ_mul]
      omega

private theorem spelled (finite : isFinite p.toFloat = true) :
    ∃ negative m e, ofFloat p.toFloat = .finite negative m e ∧
      Spelled p.bits.toNat negative m e := by
  obtain ⟨negative, m, e, read, -⟩ := exists_read finite
  exact ⟨negative, m, e, read, spelled_of_ofBits ((ofFloat_ofBits p.bits).symm.trans read)⟩

private theorem Spelled.le {bits bits' n : Nat} {negative' : Bool} {f : Int}
    (h : Spelled bits negative m e) (h' : Spelled bits' negative' n f)
    (order : bits % signUnit ≤ bits' % signUnit) : (m : ℚ) * 2 ^ e ≤ n * 2 ^ f := by
  rw [h.rest, h'.rest] at order
  obtain ⟨-, -, high, small, large, full⟩ := h
  obtain ⟨-, -, high', small', large', full'⟩ := h'
  have exponents : (e + 1074).toNat ≤ (f + 1074).toNat := by
    by_contra more
    have longer := Nat.mul_le_mul_right fractionUnit (not_le.1 more)
    rw [Nat.succ_mul] at longer
    omega
  rcases Nat.eq_zero_or_pos m with rfl | some
  · rw [Nat.cast_zero, zero_mul]
    exact mul_nonneg (Nat.cast_nonneg n) (zpow_nonneg zero_le_two f)
  · rcases eq_or_lt_of_le exponents with same | less
    · rw [same] at order
      have exponent : e = f := by omega
      rw [exponent]
      exact mul_le_mul_of_nonneg_right (Nat.cast_le.2 (by omega)) (zpow_nonneg zero_le_two f)
    · have normal : fractionUnit ≤ n := full'.resolve_right (by omega)
      have positive : 0 < n := Nat.lt_of_lt_of_le (by decide) normal
      have order := compare_canonical ⟨some, high, small, large, full⟩
        ⟨positive, high', small', large', full'⟩
      rw [compare_lt_iff_lt.2 (by omega : e < f)] at order
      exact (compare_lt_iff_lt.1 order.symm).le

private theorem Spelled.rank_eq (h : Spelled p.bits.toNat negative m e) :
    p.rank = if negative then -1 - ((p.bits.toNat % signUnit : Nat) : Int)
      else ((p.bits.toNat % signUnit : Nat) : Int) := by
  have short : p.bits.toNat < 2 * signUnit := p.bits.toNat_lt
  unfold Position.rank
  rw [h.sign]
  by_cases low : p.bits.toNat < signUnit
  · rw [if_pos low, decide_eq_false (not_le.2 low), if_neg Bool.false_ne_true, Nat.mod_eq_of_lt low]
  · have rest := Nat.mod_eq_sub_mod (not_lt.1 low)
    rw [Nat.mod_eq_of_lt (by omega : p.bits.toNat - signUnit < signUnit)] at rest
    rw [if_neg low, decide_eq_true (not_lt.1 low), if_pos rfl]
    omega

theorem exactValue_le_of_rank_le (hp : isFinite p.toFloat = true) (hq : isFinite q.toFloat = true)
    (order : p.rank ≤ q.rank) : exactValue p.toFloat ≤ exactValue q.toFloat := by
  obtain ⟨negative, m, e, read, h⟩ := spelled hp
  obtain ⟨negative', n, f, read', h'⟩ := spelled hq
  have below : 0 ≤ (m : ℚ) * 2 ^ e := mul_nonneg (Nat.cast_nonneg m) (zpow_nonneg zero_le_two e)
  have above : 0 ≤ (n : ℚ) * 2 ^ f := mul_nonneg (Nat.cast_nonneg n) (zpow_nonneg zero_le_two f)
  rw [h.rank_eq, h'.rank_eq] at order
  rw [exactValue_of_read read, exactValue_of_read read']
  cases negative with
  | false =>
    cases negative' with
    | false =>
      have le := h.le h' (Int.ofNat_le.1 order)
      simpa using le
    | true =>
      simp only [Bool.false_eq_true, if_false, if_true] at order
      omega
  | true =>
    cases negative' with
    | false =>
      simp only [if_true, Bool.false_eq_true, if_false, neg_mul, one_mul]
      linarith
    | true =>
      simp only [if_true] at order
      have le := h'.le h (by omega)
      simpa using le

/-! Short significands. -/

private theorem Spelled.ofBits {bits : Nat} (h : Spelled bits negative m e) :
    Binary.ofBits bits = .finite negative m e := by
  obtain ⟨sign, rest, high, small, large, full⟩ := h
  unfold Binary.ofBits
  rw [← sign]
  by_cases normal : fractionUnit ≤ m
  · have field : bits / fractionUnit % 2048 = (e + 1075).toNat := by
      simp only [signUnit, fractionUnit] at *
      omega
    have fraction : bits % fractionUnit + fractionUnit = m := by
      simp only [signUnit, fractionUnit] at *
      omega
    have exponent : ((e + 1075).toNat : Int) - 1075 = e := by omega
    simp only [field, fraction, exponent]
    rw [if_neg (by omega), if_neg (by omega)]
  · obtain rfl : e = -1074 := full.resolve_left normal
    have field : bits / fractionUnit % 2048 = 0 := by
      simp only [signUnit, fractionUnit] at *
      omega
    have fraction : bits % fractionUnit = m := by
      simp only [signUnit, fractionUnit] at *
      omega
    simp only [field, fraction]
    rfl

private theorem ofFloat_signed {b : Nat} (h : Spelled b false m e) (negative : Bool) :
    ofFloat (Float.ofBits (UInt64.ofNat (if negative then b + signUnit else b)))
      = .finite negative m e := by
  obtain ⟨sign, rest, high, small, large, full⟩ := h
  have below : b < signUnit := not_le.1 (of_decide_eq_false sign.symm)
  have bits : (UInt64.ofNat (if negative then b + signUnit else b)).toNat
      = if negative then b + signUnit else b := by
    rw [UInt64.toNat_ofNat', Nat.mod_eq_of_lt]
    simp only [signUnit] at *
    split <;> omega
  rw [ofFloat_ofBits, bits]
  refine Spelled.ofBits ⟨?_, ?_, high, small, large, full⟩
  · cases negative with
    | false => exact sign
    | true => exact (decide_eq_true (Nat.le_add_left _ _)).symm
  · rw [← rest]
    cases negative with
    | false => rfl
    | true => exact Nat.add_mod_right _ _

private theorem nearestBits_spelled (some : 0 < m) (short : m < 2 * fractionUnit)
    (small : -1074 ≤ e) (large : e ≤ 971) :
    ∃ (n : Nat) (t : Int), (n : ℚ) * 2 ^ t = m * 2 ^ e ∧
      Spelled (nearestBits m e false) false n t := by
  have length : m.log2 ≤ 52 := Nat.lt_succ_iff.1 ((Nat.log2_lt some.ne').2 short)
  have le : max (e + (m.log2 : Int) - 52) (-1074) ≤ e := by omega
  have form : nearestBits m e false = min ((max (e + (m.log2 : Int) - 52) (-1074) + 1074).toNat
      * fractionUnit + m * 2 ^ (e - max (e + (m.log2 : Int) - 52) (-1074)).toNat) infinityBits := by
    rw [nearestBits, if_neg some.ne']
    simp only [if_pos le]
    rfl
  have least : max (e + (m.log2 : Int) - 52) (-1074) = -1074 ∨
      (e - max (e + (m.log2 : Int) - 52) (-1074)).toNat + m.log2 = 52 := by omega
  have room : (e - max (e + (m.log2 : Int) - 52) (-1074)).toNat + m.log2 ≤ 52 := by omega
  have above : -1074 ≤ max (e + (m.log2 : Int) - 52) (-1074) := le_max_right _ _
  generalize max (e + (m.log2 : Int) - 52) (-1074) = t at *
  -- Shifted up as far as the exponent allows, the significand fills all bits or has the least
  -- exponent.
  have narrow : m * 2 ^ (e - t).toNat < 2 * fractionUnit := by
    calc
      m * 2 ^ (e - t).toNat < 2 ^ (m.log2 + 1) * 2 ^ (e - t).toNat :=
        Nat.mul_lt_mul_of_pos_right Nat.lt_log2_self (Nat.two_pow_pos _)
      _ = 2 ^ ((e - t).toNat + m.log2 + 1) := by rw [← Nat.pow_add]; congr 1; omega
      _ ≤ 2 ^ 53 := Nat.pow_le_pow_right two_pos (by omega)
  have wide : fractionUnit ≤ m * 2 ^ (e - t).toNat ∨ t = -1074 := by
    refine least.symm.imp_left fun all => ?_
    calc
      fractionUnit = 2 ^ (m.log2 + (e - t).toNat) := by rw [Nat.add_comm, all]; rfl
      _ = 2 ^ m.log2 * 2 ^ (e - t).toNat := Nat.pow_add _ _ _
      _ ≤ m * 2 ^ (e - t).toNat := Nat.mul_le_mul_right _ (Nat.log2_self_le some.ne')
  have value : (m : ℚ) * 2 ^ e = ((m * 2 ^ (e - t).toNat : Nat) : ℚ) * 2 ^ t := by
    rw [Nat.cast_mul, mul_assoc, ← two_zpow_split le]
  generalize m * 2 ^ (e - t).toNat = n at *
  have bits : nearestBits m e false = (t + 1074).toNat * fractionUnit + n := by
    rw [form, Nat.min_eq_left]
    simp only [fractionUnit, infinityBits] at *
    omega
  refine ⟨n, t, value.symm, ?_, ?_, narrow, above, le.trans large, wide⟩
  · refine (decide_eq_false ?_).symm
    rw [bits]
    simp only [fractionUnit, signUnit] at *
    omega
  · rw [bits, Nat.mod_eq_of_lt]
    simp only [fractionUnit, signUnit] at *
    omega

theorem exact_nearest (negative : Bool) (short : m < 2 * fractionUnit) (small : -1074 ≤ e)
    (large : e ≤ 971) :
    Exact (nearest negative m e false) ((if negative then -1 else 1) * (m * 2 ^ e)) := by
  obtain ⟨n, t, value, spelled⟩ : ∃ (n : Nat) (t : Int), (n : ℚ) * 2 ^ t = m * 2 ^ e ∧
      Spelled (nearestBits m e false) false n t := by
    rcases Nat.eq_zero_or_pos m with rfl | some
    · exact ⟨0, -1074, by simp, rfl, rfl, by decide, le_rfl, by decide, .inr rfl⟩
    · exact nearestBits_spelled some short small large
  have read : ofFloat (nearest negative m e false) = .finite negative n t :=
    ofFloat_signed spelled negative
  refine ⟨isFinite_of_read read, ?_⟩
  rw [exactValue_of_read read, mul_assoc, value]

end

/-! Halves. -/

section

variable {x : Float} {n : Nat}

private theorem exactValue_ofNat (negative : Bool) (short : n < 2 * fractionUnit) :
    exactValue (ofNat negative n) = (if negative then -1 else 1) * n := by
  have exact := exact_nearest (e := 0) negative short (by decide) (by decide)
  rw [zpow_zero, mul_one] at exact
  exact exact.value

private theorem div_round (m drop : Nat) (some : drop ≠ 0) :
    (((m + 2 ^ (drop - 1)) / 2 ^ drop : Nat) : Int) = round ((m : ℚ) / 2 ^ drop) := by
  have double : (2 : ℚ) ^ drop = 2 ^ (drop - 1) * 2 := by
    rw [← pow_succ, Nat.sub_add_cancel (Nat.one_le_iff_ne_zero.2 some)]
  have half : (m : ℚ) / 2 ^ drop + 1 / 2
      = ((m + 2 ^ (drop - 1) : Nat) : ℚ) / ((2 ^ drop : Nat) : ℚ) := by
    push_cast
    rw [double]
    field_simp
  rw [round_eq, half, Rat.floor_natCast_div_natCast]
  exact Int.natCast_ediv _ _

private theorem exactValue_roundHalfAway {negative : Bool} {m : Nat} {e : Int}
    (read : ofFloat x = .finite negative m e) (short : m < 2 * fractionUnit) :
    exactValue (roundHalfAway x) = (if negative then -1 else 1) * round ((m : ℚ) * 2 ^ e) := by
  unfold roundHalfAway
  rw [read]
  simp only
  split
  · rename_i whole
    have exponent : e = (e.toNat : Int) := (Int.toNat_of_nonneg whole).symm
    have natural : (m : ℚ) * 2 ^ e = (m * 2 ^ e.toNat : Nat) := by
      rw [exponent, zpow_natCast]
      push_cast
      rfl
    rw [exactValue_of_read read, mul_assoc, natural, round_natCast, Int.cast_natCast]
  · have power : ∀ k, Nat.pow 2 k = 2 ^ k := fun _ => rfl
    have unit : 0 < 2 ^ (-e).toNat := Nat.two_pow_pos _
    have half : 2 ^ ((-e).toNat - 1) < 2 ^ (-e).toNat := Nat.pow_lt_pow_right one_lt_two (by omega)
    have most : (m + 2 ^ ((-e).toNat - 1)) / 2 ^ (-e).toNat ≤ m := by
      refine Nat.le_of_lt_succ ((Nat.div_lt_iff_lt_mul unit).2 ?_)
      have := Nat.le_mul_of_pos_right m unit
      rw [Nat.succ_mul]
      omega
    have exponent : e = -((-e).toNat : Int) := by omega
    have quotient : (m : ℚ) * 2 ^ e = m / 2 ^ (-e).toNat := by
      rw [exponent, zpow_neg, zpow_natCast, ← div_eq_mul_inv, neg_neg, Int.toNat_natCast]
    simp only [power]
    rw [exactValue_ofNat negative (most.trans_lt short), quotient, ← div_round m _ (by omega),
      Int.cast_natCast]

/-- A float rounded and moved between two natural numbers has the whole part nearest to it. -/
theorem wholePart_clamp_roundHalfAway {low high : Float} {l h : Nat}
    (finite : isFinite x = true) (hl : Exact low l) (hh : Exact high h) (ordered : l ≤ h) :
    (wholePart (clamp (roundHalfAway x) low high) : Int)
      = max (l : Int) (min h (round (exactValue x))) := by
  obtain ⟨negative, m, e, read, short, -⟩ := exists_read finite
  have rounded := exactValue_roundHalfAway read short
  have whole := (within_roundHalfAway finite).finite
  have clamped := (clamp_exact whole hl.finite hh.finite (by
    rw [hl.value, hh.value]
    exact Nat.cast_le.2 ordered)).value
  have size : 0 ≤ (m : ℚ) * 2 ^ e := mul_nonneg (Nat.cast_nonneg m) (zpow_nonneg zero_le_two e)
  -- Rounding a negative float the other way does not show below the lower bound.
  have nearest : max (l : ℚ) (min h (exactValue (roundHalfAway x)))
      = ((max (l : Int) (min h (round (exactValue x))) : Int) : ℚ) := by
    push_cast
    rw [rounded, exactValue_of_read read]
    cases negative with
    | false => simp
    | true =>
      have up : (0 : Int) ≤ round ((m : ℚ) * 2 ^ e) := by
        rw [round_eq]
        exact Int.floor_nonneg.2 (by linarith)
      have down : round (-((m : ℚ) * 2 ^ e)) ≤ (0 : Int) := by
        rw [round_eq, ← Int.lt_add_one_iff, Int.floor_lt]
        push_cast
        linarith
      have least : ∀ z : Int, z ≤ 0 → max (l : ℚ) (min h z) = l := fun z most => by
        refine max_eq_left ((min_le_right _ _).trans ?_)
        exact_mod_cast most.trans (Int.natCast_nonneg l)
      have flipped : -(round ((m : ℚ) * 2 ^ e) : ℚ) = ((-round ((m : ℚ) * 2 ^ e) : Int) : ℚ) := by
        push_cast
        rfl
      rw [if_pos rfl, neg_one_mul, neg_one_mul, neg_mul, flipped, least _ (by omega), least _ down]
  have natural : 0 ≤ max (l : Int) (min h (round (exactValue x))) :=
    (Int.natCast_nonneg l).trans (le_max_left _ _)
  rw [hl.value, hh.value, nearest] at clamped
  generalize max (l : Int) (min h (round (exactValue x))) = z at *
  obtain ⟨n, rfl⟩ := Int.eq_ofNat_of_zero_le natural
  rw [Int.cast_natCast] at clamped
  rw [wholePart_eq clamped]

end

end Texture.Number
