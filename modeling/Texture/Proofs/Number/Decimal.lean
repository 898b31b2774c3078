/- Texture/Proofs/Number/Decimal
   digest: The plain text of a float is a decimal just where the float is finite, and only a zero
   has the text of a zero. -/

import Texture.Number.Text
import Texture.Proofs.Number.Size

set_option autoImplicit false
set_option relaxedAutoImplicit false

namespace Texture.Number

def IsDigits (cs : List Char) : Prop := cs ≠ [] ∧ ∀ c ∈ cs, c.isDigit = true

/-- Digits, and optionally a point and digits. -/
def IsMagnitude (cs : List Char) : Prop :=
  IsDigits cs ∨
    ∃ whole fraction, cs = whole ++ '.' :: fraction ∧ IsDigits whole ∧ IsDigits fraction

/-- An optional minus sign, digits, and optionally a point and digits. -/
def IsDecimal (cs : List Char) : Prop :=
  IsMagnitude cs ∨ ∃ rest, cs = '-' :: rest ∧ IsMagnitude rest

section

variable {cs ds : List Char}

private theorem IsDigits.append (h : IsDigits cs) (h' : ∀ c ∈ ds, c.isDigit = true) :
    IsDigits (cs ++ ds) :=
  ⟨List.append_ne_nil_of_left_ne_nil h.1 ds, List.forall_mem_append.2 ⟨h.2, h'⟩⟩

private theorem IsMagnitude.chars (h : IsMagnitude cs) : ∀ c ∈ cs, c = '.' ∨ c.isDigit = true := by
  rcases h with digits | ⟨whole, fraction, rfl, before, after⟩
  · exact fun c mem => .inr (digits.2 c mem)
  · rw [List.forall_mem_append, List.forall_mem_cons]
    exact ⟨fun c mem => .inr (before.2 c mem), .inl rfl, fun c mem => .inr (after.2 c mem)⟩

theorem IsDecimal.chars (h : IsDecimal cs) : ∀ c ∈ cs, c = '-' ∨ c = '.' ∨ c.isDigit = true := by
  rcases h with plain | ⟨rest, rfl, plain⟩
  · exact fun c mem => .inr (plain.chars c mem)
  · rw [List.forall_mem_cons]
    exact ⟨.inl rfl, fun c mem => .inr (plain.chars c mem)⟩

private theorem IsMagnitude.ne_nil (h : IsMagnitude cs) : cs ≠ [] := by
  rcases h with digits | ⟨whole, fraction, rfl, -⟩
  · exact digits.1
  · exact List.append_ne_nil_of_right_ne_nil _ (List.cons_ne_nil _ _)

theorem IsDecimal.ne_nil (h : IsDecimal cs) : cs ≠ [] := by
  rcases h with plain | ⟨rest, rfl, -⟩
  · exact plain.ne_nil
  · exact List.cons_ne_nil _ _

private theorem not_isDecimal_of_mem {c : Char} (mem : c ∈ cs)
    (strange : (c == '-' || c == '.' || c.isDigit) = false) : ¬IsDecimal cs := by
  intro decimal
  rcases decimal.chars c mem with rfl | rfl | digit
  · exact Bool.noConfusion strange
  · exact Bool.noConfusion strange
  · rw [digit, Bool.or_true] at strange
    exact Bool.noConfusion strange

end

namespace Text

private theorem isDigits_digitsOf (n : Nat) : IsDigits (digitsOf n) :=
  ⟨Nat.toDigits_ne_nil,
    fun _ mem => Nat.isDigit_of_mem_toDigits (by decide : 0 < 10) (by decide) mem⟩

private theorem isDigit_of_mem_zeros {n : Nat} {c : Char} (mem : c ∈ zeros n) :
    c.isDigit = true := by
  rw [List.eq_of_mem_replicate mem]
  rfl

private theorem isMagnitude_positional (d : Decimal) :
    IsMagnitude (positional FloatStyle.plain d) := by
  have digits := isDigits_digitsOf d.digits
  unfold positional
  simp only
  split
  · refine .inl ?_
    have zeros : ∀ c ∈ zeros d.exponent.toNat, c.isDigit = true := fun _ => isDigit_of_mem_zeros
    exact (digits.append zeros).append (List.forall_mem_nil _)
  · rename_i fraction
    have some : 0 < (digitsOf d.digits).length := List.length_pos_iff.2 digits.1
    split
    · rename_i inside
      refine .inr ⟨_, _, rfl, ⟨?_, ?_⟩, ?_, ?_⟩
      · rw [← List.length_pos_iff, List.length_take]
        omega
      · exact fun c mem => digits.2 c (List.mem_of_mem_take mem)
      · rw [← List.length_pos_iff, List.length_drop]
        omega
      · exact fun c mem => digits.2 c (List.mem_of_mem_drop mem)
    · have zero : IsDigits ['0'] := ⟨List.cons_ne_nil _ _, List.forall_mem_singleton.2 rfl⟩
      refine .inr ⟨['0'], _, rfl, zero, List.append_ne_nil_of_right_ne_nil _ digits.1, ?_⟩
      exact List.forall_mem_append.2 ⟨fun c => isDigit_of_mem_zeros, digits.2⟩

private theorem isMagnitude_magnitude (m : Nat) (e : Int) :
    IsMagnitude (magnitude FloatStyle.plain m e) := by
  unfold magnitude
  split
  · exact isMagnitude_positional _
  · exact isMagnitude_positional _

private theorem positional_ne_zero {d : Decimal} (some : d.digits ≠ 0 ∨ d.exponent ≠ 0) :
    positional FloatStyle.plain d ≠ ['0'] := by
  intro same
  have digits := isDigits_digitsOf d.digits
  have least : 0 < (digitsOf d.digits).length := List.length_pos_iff.2 digits.1
  have size := congrArg List.length same
  unfold positional at same size
  simp only at same size
  split at same
  · rename_i whole
    have plain : FloatStyle.plain.pointZero = false := rfl
    rw [if_pos whole, plain] at size
    simp only [zeros, List.length_append, List.length_replicate, List.length_singleton,
      Bool.false_eq_true, if_false, List.length_nil] at size
    have exponent : d.exponent.toNat = 0 := by omega
    rw [exponent, plain] at same
    have zero : Nat.ofDigitChars 10 (digitsOf d.digits) 0 = 0 := by
      simp only [zeros, List.replicate_zero, List.append_nil, Bool.false_eq_true, if_false] at same
      rw [same]
      rfl
    rw [digitsOf, Nat.ofDigitChars_toDigits (by decide) (by decide)] at zero
    omega
  · rename_i fraction
    rw [if_neg fraction] at size
    split at size
    · simp only [List.length_append, List.length_cons, List.length_take, List.length_drop,
        List.length_nil] at size
      omega
    · simp only [List.length_append, List.length_cons, List.length_nil] at size
      omega

end Text

namespace Shortest

open Binary (fractionUnit)

variable {tie : Tie} {m : Nat} {e k : Int}

private theorem le_nearer (tie : Tie) (d fromBelow fromAbove : Nat) :
    d ≤ tie.nearer d fromBelow fromAbove := by
  unfold Tie.nearer
  split
  · exact le_rfl
  · split
    · exact Nat.le_succ d
    · cases tie <;> exact Nat.le_add_right d _

private theorem onGrid_ne_zero (positive : m ≠ 0) {d : Nat} (found : onGrid tie m e k = some d) :
    d ≠ 0 := by
  have scaled : 0 < twos (e - 2) * tens (-k) :=
    Nat.mul_pos (Nat.pow_pos (by decide)) (Nat.pow_pos (by decide))
  have near : (if m = fractionUnit && decide (-1074 < e) then 1 else 2) ≤ 2 := by
    split <;> decide
  unfold onGrid at found
  simp only at found
  generalize twos (e - 2) * tens (-k) = scale at *
  generalize twos (2 - e) * tens k = unit at *
  generalize (if m = fractionUnit && decide (-1074 < e) then 1 else 2) = below at *
  have low : 0 < (4 * m - below) * scale := Nat.mul_pos (by omega) scaled
  generalize 4 * m * scale / unit = n at *
  -- Zero is farther from the magnitude than what reads back as it.
  have above : (decide ((4 * m - below) * scale < n * unit) ||
      m % 2 == 0 && (4 * m - below) * scale == n * unit) = true → n ≠ 0 := by
    rintro hit rfl
    rw [Nat.zero_mul] at hit
    simp at hit
    omega
  split at found
  · rename_i both
    have := above (Bool.and_eq_true_iff.1 both).1
    have := le_nearer tie n (4 * m * scale - n * unit) ((n + 1) * unit - 4 * m * scale)
    rw [← Option.some.inj found]
    omega
  · split at found
    · rename_i hit
      rw [← Option.some.inj found]
      exact above hit
    · split at found
      · rw [← Option.some.inj found]
        exact n.succ_ne_zero
      · cases found

private theorem onGrid_one (large : 5 ≤ e) : onGrid tie m e 1 ≠ none := by
  have wide : 2 ^ 3 ≤ twos (e - 2) := Nat.pow_le_pow_right two_pos (by omega)
  have one : twos (2 - e) = 1 := by
    have none : (2 - e).toNat = 0 := by omega
    rw [twos, none]
  have ten : tens 1 = 10 := rfl
  have plain : tens (-1) = 1 := rfl
  unfold onGrid
  simp only [one, ten, plain, Nat.mul_one, Nat.one_mul]
  generalize twos (e - 2) = scale at *
  generalize (if m = fractionUnit && decide (-1074 < e) then 1 else 2) = below
  have high : (4 * m * scale / 10 + 1) * 10 < (4 * m + 2) * scale := by
    rw [Nat.add_mul (4 * m)]
    omega
  rw [decide_eq_true high, Bool.true_or, Bool.and_true, if_pos (rfl : true = true)]
  split
  · exact Option.some_ne_none _
  · exact Option.some_ne_none _

private theorem search_digits (positive : m ≠ 0) {fuel before : Nat} (less : before < fuel)
    (hit : onGrid tie m e (k - before) ≠ none) : (search tie m e fuel k).digits ≠ 0 := by
  induction fuel generalizing before k with
  | zero => exact absurd less (Nat.not_lt_zero before)
  | succ fuel ih =>
    unfold search
    cases found : onGrid tie m e k with
    | some d => exact onGrid_ne_zero positive found
    | none =>
      cases before with
      | zero => exact absurd found (by simpa using hit)
      | succ before =>
        refine ih (Nat.lt_of_succ_lt_succ less) ?_
        have place : k - 1 - (before : Int) = k - (before + 1 : Nat) := by omega
        rwa [place]

private theorem search_exponent {fuel : Nat} (zero : (search tie m e fuel k).digits = 0)
    (positive : m ≠ 0) : (search tie m e fuel k).exponent = k - fuel := by
  induction fuel generalizing k with
  | zero => simp [search]
  | succ fuel ih =>
    unfold search at zero ⊢
    cases found : onGrid tie m e k with
    | some d =>
      rw [found] at zero
      exact absurd zero (onGrid_ne_zero positive found)
    | none =>
      rw [found] at zero
      simp only at zero ⊢
      rw [ih zero]
      omega

/-- The shortest decimal of a positive magnitude is not the one that zero has. Without a point on
any grid the search would have to end at the exponent zero, but on its last grids tens are fine
enough. -/
private theorem ofMagnitude_ne_zero (positive : m ≠ 0) (short : m < 2 * fractionUnit) :
    (ofMagnitude tie m e).digits ≠ 0 ∨ (ofMagnitude tie m e).exponent ≠ 0 := by
  by_contra both
  rw [not_or, not_not, not_not] at both
  obtain ⟨zero, whole⟩ := both
  unfold ofMagnitude at zero whole
  simp only at zero whole
  have exponent := search_exponent zero positive
  rw [whole] at exponent
  have length : m.log2 < 53 := (Nat.log2_lt positive).2 short
  have large : 5 ≤ e := by omega
  refine search_digits positive (show 23 < 24 by decide) ?_ zero
  have one : ((m.log2 : Int) + e) * 30103 / 100000 + 2 - (23 : Nat) = 1 := by omega
  rw [one]
  exact onGrid_one large

end Shortest

open Binary

variable {x : Float}

private theorem Text.magnitude_ne_zero {m : Nat} {e : Int} (positive : m ≠ 0)
    (short : m < 2 * fractionUnit) : magnitude FloatStyle.plain m e ≠ ['0'] := by
  rw [magnitude, if_neg positive]
  exact positional_ne_zero (Shortest.ofMagnitude_ne_zero positive short)

/-- A float is written as a decimal just if it is finite. -/
theorem floatText_isDecimal (x : Float) :
    IsDecimal (floatText FloatStyle.plain x).toList ↔ isFinite x = true := by
  unfold floatText isFinite
  cases ofFloat x with
  | nan =>
    have strange : ¬IsDecimal "NaN".toList := not_isDecimal_of_mem (c := 'N') (by decide) rfl
    exact iff_of_false strange Bool.noConfusion
  | infinite negative =>
    refine iff_of_false (not_isDecimal_of_mem (c := 'i') ?_ rfl) Bool.noConfusion
    cases negative <;> decide
  | finite negative m e =>
    have plain := Text.isMagnitude_magnitude m e
    refine iff_of_true ?_ rfl
    simp only [String.toList_ofList]
    cases negative with
    | false => exact .inl plain
    | true => exact .inr ⟨_, rfl, plain⟩

/-- Only zero is written as zero with a sign. -/
theorem floatText_ne (some : isFinite x = true → exactValue x ≠ 0) :
    floatText FloatStyle.plain x ≠ "-0" := by
  unfold floatText
  cases read : ofFloat x with
  | nan => decide
  | infinite negative => cases negative <;> decide
  | finite negative m e =>
    have finite := isFinite_of_read read
    obtain ⟨_, _, _, read', short, -⟩ := exists_read finite
    rw [read, Binary.finite.injEq] at read'
    obtain ⟨-, rfl, rfl⟩ := read'
    have positive : m ≠ 0 := by
      rintro rfl
      refine some finite ?_
      rw [exactValue_of_read read, Nat.cast_zero, mul_zero, zero_mul]
    intro same
    have written := congrArg String.toList same
    simp only [String.toList_ofList] at written
    cases negative with
    | false =>
      have sign : '-' ∈ Text.magnitude FloatStyle.plain m e := by
        have listed : Text.magnitude FloatStyle.plain m e = ['-', '0'] := written
        rw [listed]
        exact List.mem_cons_self
      rcases (Text.isMagnitude_magnitude m e).chars '-' sign with dot | digit
      · cases dot
      · cases digit
    | true => exact Text.magnitude_ne_zero positive short (List.cons.inj written).2

end Texture.Number
