/- Texture/Proofs/Number/Size
   digest: Floats below or above powers of two: how sizes go through arithmetic and comparisons, and
   through the nearest float to a whole number or a ratio. -/

import Texture.Number.Order
import Texture.Proofs.Number.Arithmetic

set_option autoImplicit false
set_option relaxedAutoImplicit false

namespace Texture.Number

open Binary
open Float.Model (Format UnpackedFloat)
open Float.Model.UnpackedFloat

/-- A finite float whose magnitude is at most a power of two. -/
structure Within (k : Int) (x : Float) : Prop where
  finite : isFinite x = true
  most : |exactValue x| ≤ 2 ^ k

structure Beyond (k : Int) (x : Float) : Prop where
  finite : isFinite x = true
  least : 2 ^ k ≤ |exactValue x|

def isWithin (k : Int) (x : Float) : Bool :=
  match ofFloat x with
  | .finite _ m e => decide (m * 2 ^ (e - k).toNat ≤ 2 ^ (k - e).toNat)
  | _ => false

def isBeyond (k : Int) (x : Float) : Bool :=
  match ofFloat x with
  | .finite _ m e => decide (2 ^ (k - e).toNat ≤ m * 2 ^ (e - k).toNat)
  | _ => false

def isUnsigned (x : Float) : Bool :=
  match ofFloat x with
  | .finite false _ _ => true
  | _ => false

def isWhole (n : Nat) (x : Float) : Bool :=
  match ofFloat x with
  | .finite false m e => decide (m * 2 ^ e.toNat = n * 2 ^ (-e).toNat)
  | _ => false

section

variable {j k l : Int} {n : Nat} {x y : Float} {q : ℚ}

private theorem two_zpow_balance (k e : Int) :
    (2 : ℚ) ^ k * ((2 ^ (e - k).toNat : Nat) : ℚ) = 2 ^ e * ((2 ^ (k - e).toNat : Nat) : ℚ) := by
  rw [Nat.cast_pow, Nat.cast_pow, Nat.cast_ofNat, ← zpow_natCast, ← zpow_natCast,
    ← zpow_add₀ two_ne_zero, ← zpow_add₀ two_ne_zero]
  congr 1
  omega

private theorem le_two_zpow_iff {m : Nat} {e : Int} :
    (m : ℚ) * 2 ^ e ≤ 2 ^ k ↔ m * 2 ^ (e - k).toNat ≤ 2 ^ (k - e).toNat := by
  have unit : (0 : ℚ) < (2 ^ (e - k).toNat : Nat) := Nat.cast_pos.2 (Nat.two_pow_pos _)
  rw [← mul_le_mul_iff_left₀ unit, two_zpow_balance, mul_right_comm, mul_comm _ ((2 : ℚ) ^ e),
    mul_le_mul_iff_right₀ (zpow_pos two_pos e), ← Nat.cast_mul, Nat.cast_le]

private theorem two_zpow_le_iff {m : Nat} {e : Int} :
    2 ^ k ≤ (m : ℚ) * 2 ^ e ↔ 2 ^ (k - e).toNat ≤ m * 2 ^ (e - k).toNat := by
  have unit : (0 : ℚ) < (2 ^ (e - k).toNat : Nat) := Nat.cast_pos.2 (Nat.two_pow_pos _)
  rw [← mul_le_mul_iff_left₀ unit, two_zpow_balance, mul_right_comm, mul_comm _ ((2 : ℚ) ^ e),
    mul_le_mul_iff_right₀ (zpow_pos two_pos e), ← Nat.cast_mul, Nat.cast_le]

theorem two_zpow_log2_le {m : Nat} (some : m ≠ 0) (e : Int) :
    (2 : ℚ) ^ ((m.log2 : Int) + e) ≤ m * 2 ^ e := by
  rw [zpow_add₀ two_ne_zero, zpow_natCast]
  refine mul_le_mul_of_nonneg_right ?_ (zpow_nonneg zero_le_two e)
  exact_mod_cast Nat.log2_self_le some

theorem le_two_zpow_log2 (m : Nat) (e : Int) :
    (m : ℚ) * 2 ^ e ≤ 2 ^ ((m.log2 : Int) + 1 + e) := by
  rw [zpow_add₀ two_ne_zero, ← Nat.cast_succ, zpow_natCast]
  refine mul_le_mul_of_nonneg_right ?_ (zpow_nonneg zero_le_two e)
  exact_mod_cast Nat.lt_log2_self.le

theorem exactValue_of_read {negative : Bool} {m : Nat} {e : Int}
    (read : ofFloat x = .finite negative m e) :
    exactValue x = (if negative then -1 else 1) * m * 2 ^ e := by rw [exactValue, read]

theorem abs_exactValue_of_read {negative : Bool} {m : Nat} {e : Int}
    (read : ofFloat x = .finite negative m e) : |exactValue x| = m * 2 ^ e := by
  rw [exactValue_of_read read]
  cases negative <;> simp

theorem exactValue_nonpos {m : Nat} {e : Int} (read : ofFloat x = .finite true m e) :
    exactValue x ≤ 0 := by
  have size := mul_nonneg (Nat.cast_nonneg (α := ℚ) m) (zpow_nonneg zero_le_two e)
  rw [exactValue_of_read read, if_pos rfl]
  linarith

theorem exactValue_nonneg (held : isUnsigned x = true) : isFinite x = true ∧ 0 ≤ exactValue x := by
  unfold isUnsigned at held
  split at held
  · rename_i m e read
    refine ⟨by rw [Binary.isFinite, read], ?_⟩
    rw [exactValue_of_read read, if_neg Bool.false_ne_true, one_mul]
    exact mul_nonneg (Nat.cast_nonneg m) (zpow_nonneg zero_le_two e)
  · cases held

theorem exists_read (finite : isFinite x = true) :
    ∃ negative m e, ofFloat x = .finite negative m e ∧ m < 2 * fractionUnit ∧ -1074 ≤ e := by
  have read := ofFloat_eq x
  cases unpacks finite with
  | zero s unpacked value => exact ⟨_, 0, -1074, by rw [read, unpacked]; rfl, by decide, le_rfl⟩
  | some s m e positive unpacked canonical value =>
    exact ⟨_, m, e, by rw [read, unpacked]; rfl, canonical.high, canonical.small⟩

theorem isFinite_of_read {negative : Bool} {m : Nat} {e : Int}
    (read : ofFloat x = .finite negative m e) : isFinite x = true := by rw [Binary.isFinite, read]

theorem Within.of_test (held : isWithin k x = true) : Within k x := by
  unfold isWithin at held
  split at held
  · rename_i negative m e read
    refine ⟨isFinite_of_read read, ?_⟩
    rw [abs_exactValue_of_read read]
    exact le_two_zpow_iff.2 (of_decide_eq_true held)
  · cases held

theorem Beyond.of_test (held : isBeyond k x = true) : Beyond k x := by
  unfold isBeyond at held
  split at held
  · rename_i negative m e read
    refine ⟨isFinite_of_read read, ?_⟩
    rw [abs_exactValue_of_read read]
    exact two_zpow_le_iff.2 (of_decide_eq_true held)
  · cases held

theorem Exact.of_test (held : isWhole n x = true) : Exact x n := by
  unfold isWhole at held
  split at held
  · rename_i m e read
    refine ⟨isFinite_of_read read, ?_⟩
    have same : ((m * 2 ^ e.toNat : Nat) : ℚ) = (n * 2 ^ (-e).toNat : Nat) :=
      congrArg Nat.cast (of_decide_eq_true held)
    have balance := two_zpow_balance 0 e
    have unit : ((2 ^ (-e).toNat : Nat) : ℚ) ≠ 0 := Nat.cast_ne_zero.2 (Nat.two_pow_pos _).ne'
    rw [Int.sub_zero, Int.zero_sub, zpow_zero, one_mul] at balance
    rw [Nat.cast_mul, Nat.cast_mul, balance, ← mul_assoc] at same
    rw [exactValue_of_read read, if_neg Bool.false_ne_true, one_mul]
    exact mul_right_cancel₀ unit same
  · cases held

theorem within_zero (k : Int) : Within k 0.0 := by
  have read : ofFloat 0.0 = .finite false 0 (-1074) := by decide
  refine ⟨isFinite_of_read read, ?_⟩
  rw [exactValue_zero, abs_zero]
  exact zpow_nonneg zero_le_two k

theorem within_one : Within 0 1.0 := .of_test (by decide)

theorem within_two : Within 1 2.0 := .of_test (by decide)

theorem beyond_two : Beyond 1 2.0 := .of_test (by decide)

theorem Within.mono (h : Within j x) (le : j ≤ k) : Within k x :=
  ⟨h.finite, h.most.trans (zpow_le_zpow_right₀ one_le_two le)⟩

theorem Beyond.nonzero (h : Beyond k x) : exactValue x ≠ 0 := by
  intro zero
  have := (zpow_pos (two_pos (α := ℚ)) k).trans_le h.least
  simp [zero] at this

theorem within_of_isFinite (finite : isFinite x = true) : Within 1024 x := by
  refine ⟨finite, ?_⟩
  cases unpacks finite with
  | zero s unpacked value =>
    rw [value, abs_zero]
    exact zpow_nonneg zero_le_two _
  | some s m e positive unpacked canonical value =>
    have short : (m : ℚ) ≤ 2 ^ (53 : Int) := by exact_mod_cast canonical.high.le
    rw [value, abs_mul, abs_apply, abs_of_pos (zpow_pos two_pos e)]
    calc
      (m : ℚ) * 2 ^ e ≤ 2 ^ (53 : Int) * 2 ^ (971 : Int) :=
        mul_le_mul short (zpow_le_zpow_right₀ one_le_two canonical.large)
          (zpow_nonneg zero_le_two e) (zpow_nonneg zero_le_two _)
      _ = 2 ^ (1024 : Int) := by rw [← zpow_add₀ two_ne_zero]; rfl

private theorem Rounds.within (h : Rounds q x) (bound : |q| ≤ 2 ^ k) (small : -1074 ≤ k) :
    Within k x :=
  ⟨h.finite, h.most k small bound⟩

theorem Rounds.beyond (h : Rounds q x) (bound : 2 ^ k ≤ |q|) (small : -1074 ≤ k) : Beyond k x :=
  ⟨h.finite, h.least k small bound⟩

private theorem two_zpow_le_top (le : k ≤ 1023) : (2 : ℚ) ^ k ≤ 2 ^ (1023 : Int) :=
  zpow_le_zpow_right₀ one_le_two le

private theorem two_zpow_sum (le : max j k < l) : (2 : ℚ) ^ j + 2 ^ k ≤ 2 ^ l := by
  have left : (2 : ℚ) ^ j ≤ 2 ^ (l - 1) := zpow_le_zpow_right₀ one_le_two (by omega)
  have right : (2 : ℚ) ^ k ≤ 2 ^ (l - 1) := zpow_le_zpow_right₀ one_le_two (by omega)
  have double : (2 : ℚ) ^ l = 2 ^ (l - 1) * 2 := by
    rw [← zpow_add_one₀ two_ne_zero, Int.sub_add_cancel]
  linarith

theorem Within.add (hx : Within j x) (hy : Within k y) (le : max j k < l ∧ -1074 ≤ l ∧ l ≤ 1023) :
    Within l (x + y) := by
  have bound : |exactValue x + exactValue y| ≤ 2 ^ l :=
    (abs_add_le _ _).trans ((add_le_add hx.most hy.most).trans (two_zpow_sum le.1))
  exact (rounds_add hx.finite hy.finite (bound.trans (two_zpow_le_top le.2.2))).within bound le.2.1

theorem Within.add_small (hx : Within j x) (hy : Within k y)
    (le : k < j - 53 ∧ -1022 ≤ j ∧ j < 1023) : Within j (x + y) := by
  have less : (2 : ℚ) ^ k < 2 ^ (j - 53) := zpow_lt_zpow_right₀ one_lt_two le.1
  have bound : |exactValue x + exactValue y| < 2 ^ j + 2 ^ (j - 53) :=
    (abs_add_le _ _).trans_lt (add_lt_add_of_le_of_lt hx.most (hy.most.trans_lt less))
  have room : |exactValue x + exactValue y| ≤ 2 ^ (1023 : Int) :=
    bound.le.trans (two_zpow_sum (by omega))
  have rounds := rounds_add hx.finite hy.finite room
  exact ⟨rounds.finite, rounds.still j le.2.1 bound⟩

theorem Within.sub (hx : Within j x) (hy : Within k y) (le : max j k < l ∧ -1074 ≤ l ∧ l ≤ 1023) :
    Within l (x - y) := by
  have bound : |exactValue x - exactValue y| ≤ 2 ^ l :=
    (abs_sub _ _).trans ((add_le_add hx.most hy.most).trans (two_zpow_sum le.1))
  exact (rounds_sub hx.finite hy.finite (bound.trans (two_zpow_le_top le.2.2))).within bound le.2.1

theorem Within.mul (hx : Within j x) (hy : Within k y) (le : j + k ≤ l ∧ -1074 ≤ l ∧ l ≤ 1023) :
    Within l (x * y) := by
  have bound : |exactValue x * exactValue y| ≤ 2 ^ l := by
    rw [abs_mul]
    calc
      |exactValue x| * |exactValue y| ≤ 2 ^ j * 2 ^ k :=
        mul_le_mul hx.most hy.most (abs_nonneg _) (zpow_nonneg zero_le_two _)
      _ = 2 ^ (j + k) := (zpow_add₀ two_ne_zero _ _).symm
      _ ≤ 2 ^ l := zpow_le_zpow_right₀ one_le_two le.1
  exact (rounds_mul hx.finite hy.finite
    (.inl (bound.trans (two_zpow_le_top le.2.2)))).within bound le.2.1

theorem Within.div (hx : Within j x) (hy : Beyond k y) (le : j - k ≤ l ∧ -1074 ≤ l ∧ l ≤ 1023) :
    Within l (x / y) := by
  have bound : |exactValue x / exactValue y| ≤ 2 ^ l := by
    rw [abs_div]
    calc
      |exactValue x| / |exactValue y| ≤ 2 ^ j / 2 ^ k :=
        div_le_div₀ (zpow_nonneg zero_le_two _) hx.most (zpow_pos two_pos _) hy.least
      _ = 2 ^ (j - k) := (zpow_sub₀ two_ne_zero _ _).symm
      _ ≤ 2 ^ l := zpow_le_zpow_right₀ one_le_two le.1
  exact (rounds_div hx.finite hy.finite hy.nonzero
    (bound.trans (two_zpow_le_top le.2.2))).within bound le.2.1

private theorem neg_eq : -x = .ofModel (.pack x.toModel.unpack.neg) := rfl

private theorem abs_eq : x.abs = .ofModel (.pack x.toModel.unpack.abs) := rfl

private theorem rounds_neg (finite : isFinite x = true) : Rounds (exactValue x) (-x) := by
  rw [neg_eq]
  cases unpacks finite with
  | zero s read value =>
    rw [read, value]
    exact rounds_zero _
  | some s m e positive read canonical value =>
    rw [read, value]
    exact rounds_finite canonical

private theorem rounds_abs (finite : isFinite x = true) : Rounds (exactValue x) x.abs := by
  rw [abs_eq]
  cases unpacks finite with
  | zero s read value =>
    rw [read, value]
    exact rounds_zero _
  | some s m e positive read canonical value =>
    rw [read, value]
    exact rounds_finite canonical

theorem Within.neg (h : Within k x) (small : -1074 ≤ k) : Within k (-x) :=
  (rounds_neg h.finite).within h.most small

theorem Within.abs (h : Within k x) (small : -1074 ≤ k) : Within k x.abs :=
  (rounds_abs h.finite).within h.most small

private theorem compare_neg (a b : ℚ) : compare (-a) (-b) = compare b a := by
  rcases lt_trichotomy b a with less | rfl | more
  · rw [compare_lt_iff_lt.2 less, compare_lt_iff_lt.2 (neg_lt_neg less)]
  · rw [compare_eq_iff_eq.2 rfl, compare_eq_iff_eq.2 rfl]
  · rw [compare_gt_iff_gt.2 more, compare_gt_iff_gt.2 (neg_lt_neg more)]

theorem compare_canonical {m n : Nat} {e f : Int} (h : Canonical m e) (h' : Canonical n f) :
    (compare e f).then (compare m n) = compare ((m : ℚ) * 2 ^ e) (n * 2 ^ f) := by
  have apart : ∀ {m n : Nat} {e f : Int}, Canonical m e → Canonical n f → e < f →
      (m : ℚ) * 2 ^ e < n * 2 ^ f := by
    intro m n e f h h' less
    have full : fractionUnit ≤ n := h'.full.resolve_right (by have := h.small; omega)
    calc
      (m : ℚ) * 2 ^ e < ((2 * fractionUnit : Nat) : ℚ) * 2 ^ e :=
        mul_lt_mul_of_pos_right (Nat.cast_lt.2 h.high) (zpow_pos two_pos e)
      _ = (fractionUnit : Nat) * 2 ^ (e + 1) := by
        rw [zpow_add_one₀ two_ne_zero, Nat.cast_mul, Nat.cast_ofNat]
        ring
      _ ≤ n * 2 ^ f :=
        mul_le_mul (Nat.cast_le.2 full) (zpow_le_zpow_right₀ one_le_two less)
          (zpow_nonneg zero_le_two _) (Nat.cast_nonneg n)
  rcases lt_trichotomy e f with less | rfl | more
  · rw [compare_lt_iff_lt.2 less, compare_lt_iff_lt.2 (apart h h' less)]
    rfl
  · have unit : (0 : ℚ) < 2 ^ e := zpow_pos two_pos e
    rw [compare_eq_iff_eq.2 rfl, Ordering.then]
    rcases lt_trichotomy m n with less | rfl | more
    · rw [compare_lt_iff_lt.2 less, compare_lt_iff_lt.2]
      exact mul_lt_mul_of_pos_right (Nat.cast_lt.2 less) unit
    · rw [compare_eq_iff_eq.2 rfl, compare_eq_iff_eq.2 rfl]
    · rw [compare_gt_iff_gt.2 more, compare_gt_iff_gt.2]
      exact mul_lt_mul_of_pos_right (Nat.cast_lt.2 more) unit
  · rw [compare_gt_iff_gt.2 more, compare_gt_iff_gt.2 (apart h' h more)]
    rfl

private theorem compare_eq (hx : isFinite x = true) (hy : isFinite y = true) :
    UnpackedFloat.compare x.toModel.unpack y.toModel.unpack
      = some (compare (exactValue x) (exactValue y)) := by
  have above : ∀ {m : Nat} {e : Int}, 0 < m → (0 : ℚ) < m * 2 ^ e := fun positive =>
    mul_pos (Nat.cast_pos.2 positive) (zpow_pos two_pos _)
  have below : ∀ {m : Nat} {e : Int}, 0 < m → ((-m : Int) : ℚ) * 2 ^ e < 0 := by
    intro m e positive
    have := above (e := e) positive
    push_cast
    linarith
  cases unpacks hx with
  | zero s read value =>
    cases unpacks hy with
    | zero t read' value' =>
      rw [read, read', value, value']
      rfl
    | some t n f positive read' canonical value' =>
      rw [read, read', value, value']
      cases t with
      | negative => exact congrArg some (compare_gt_iff_gt.2 (below positive)).symm
      | positive => exact congrArg some (compare_lt_iff_lt.2 (above positive)).symm
  | some s m e positive read canonical value =>
    cases unpacks hy with
    | zero t read' value' =>
      rw [read, read', value, value']
      cases s with
      | negative => exact congrArg some (compare_lt_iff_lt.2 (below positive)).symm
      | positive => exact congrArg some (compare_gt_iff_gt.2 (above positive)).symm
    | some t n f positive' read' canonical' value' =>
      rw [read, read', value, value']
      cases s with
      | negative =>
        cases t with
        | negative =>
          -- Below zero the greater magnitude is the smaller number.
          have flip : ((compare e f).then (compare m n)).swap
              = compare (((-m : Int) : ℚ) * 2 ^ e) ((-n : Int) * 2 ^ f) := by
            rw [compare_canonical canonical canonical', ← Std.OrientedOrd.eq_swap]
            push_cast
            rw [neg_mul, neg_mul, compare_neg]
          exact congrArg some flip
        | positive =>
          exact congrArg some (compare_lt_iff_lt.2 ((below positive).trans (above positive'))).symm
      | positive =>
        cases t with
        | negative =>
          exact congrArg some (compare_gt_iff_gt.2 ((below positive').trans (above positive))).symm
        | positive => exact congrArg some (compare_canonical canonical canonical')

theorem lt_iff_compare :
    x < y ↔ UnpackedFloat.compare x.toModel.unpack y.toModel.unpack = some .lt := by
  have unfolded : x < y ↔ decide (x.toModel < y.toModel) = true := Iff.rfl
  have model : x.toModel < y.toModel ↔
      (UnpackedFloat.compare x.toModel.unpack y.toModel.unpack == some .lt) = true := Iff.rfl
  rw [unfolded, decide_eq_true_iff, model, beq_iff_eq]

theorem lt_iff (hx : isFinite x = true) (hy : isFinite y = true) :
    x < y ↔ exactValue x < exactValue y := by
  rw [lt_iff_compare, compare_eq hx hy, Option.some.injEq, compare_lt_iff_lt]

theorem le_iff_compare :
    x ≤ y ↔ (UnpackedFloat.compare x.toModel.unpack y.toModel.unpack).any (·.isLE) = true := by
  have unfolded : x ≤ y ↔ decide (x.toModel ≤ y.toModel) = true := Iff.rfl
  have model : x.toModel ≤ y.toModel ↔
      (UnpackedFloat.compare x.toModel.unpack y.toModel.unpack).any (·.isLE) = true := Iff.rfl
  rw [unfolded, decide_eq_true_iff, model]

theorem le_iff (hx : isFinite x = true) (hy : isFinite y = true) :
    x ≤ y ↔ exactValue x ≤ exactValue y := by
  rw [le_iff_compare, compare_eq hx hy, Option.any_some, ← compare_le_iff_le]
  exact Ordering.isLE_iff_ne_gt

theorem beq_iff (hx : isFinite x = true) (hy : isFinite y = true) :
    (x == y) = true ↔ exactValue x = exactValue y := by
  have unfolded : (x == y) =
      (UnpackedFloat.compare x.toModel.unpack y.toModel.unpack == some .eq) := rfl
  rw [unfolded, beq_iff_eq, compare_eq hx hy, Option.some.injEq, compare_eq_iff_eq]

theorem isFinite_of_beq (same : (x == y) = true) (hy : isFinite y = true) : isFinite x = true := by
  have unfolded : (x == y) =
      (UnpackedFloat.compare x.toModel.unpack y.toModel.unpack == some .eq) := rfl
  rw [unfolded, beq_iff_eq] at same
  rw [isFinite_eq] at hy ⊢
  generalize x.toModel.unpack = u at *
  generalize y.toModel.unpack = v at *
  cases u with
  | notANumber => cases same
  | infinity s =>
    cases v with
    | notANumber => cases hy
    | infinity t => cases hy
    | zero t => cases s <;> cases same
    | finite t m e => cases s <;> cases same
  | zero s => rfl
  | finite s m e => rfl

theorem larger_or (x y : Float) : larger x y = x ∨ larger x y = y := by
  unfold larger
  split
  · exact .inr rfl
  · split
    · exact .inl rfl
    · split
      · exact .inl rfl
      · exact .inr rfl

private theorem smaller_or (x y : Float) : smaller x y = x ∨ smaller x y = y := by
  unfold smaller
  split
  · exact .inr rfl
  · split
    · exact .inl rfl
    · split
      · exact .inl rfl
      · exact .inr rfl

theorem Within.larger (hx : Within k x) (hy : Within k y) : Within k (larger x y) := by
  rcases larger_or x y with same | same <;> rwa [same]

theorem Within.smaller (hx : Within k x) (hy : Within k y) : Within k (smaller x y) := by
  rcases smaller_or x y with same | same <;> rwa [same]

private theorem isNaN_of_isFinite (finite : isFinite x = true) : x.isNaN = false := by
  have model : x.isNaN = x.toModel.unpack.isNaN := rfl
  rw [model]
  cases unpacks finite with
  | zero s read value => rw [read]; rfl
  | some s m e positive read canonical value => rw [read]; rfl

theorem exactValue_larger (hx : isFinite x = true) (hy : isFinite y = true) :
    exactValue (larger x y) = max (exactValue x) (exactValue y) := by
  have numbers : ¬x.isNaN ∧ ¬y.isNaN := by
    rw [isNaN_of_isFinite hx, isNaN_of_isFinite hy]
    decide
  unfold larger
  rw [if_neg numbers.1, if_neg numbers.2]
  split
  · rename_i less
    exact (max_eq_left ((lt_iff hy hx).1 less).le).symm
  · rename_i most
    exact (max_eq_right (not_lt.1 (mt (lt_iff hy hx).2 most))).symm

theorem le_larger (hy : isFinite y = true) (finite : isFinite (larger x y) = true) :
    exactValue y ≤ exactValue (larger x y) := by
  have number := isNaN_of_isFinite hy
  unfold larger at finite ⊢
  split
  · exact le_rfl
  · rw [if_neg (by rw [number]; decide)]
    split
    · rename_i missing greater
      rw [if_neg missing, if_neg (by rw [number]; decide), if_pos greater] at finite
      exact ((lt_iff hy finite).1 greater).le
    · exact le_rfl

theorem clamp_exact {low high : Float} (hx : isFinite x = true) (hl : isFinite low = true)
    (hh : isFinite high = true) (ordered : exactValue low ≤ exactValue high) :
    Exact (clamp x low high) (max (exactValue low) (min (exactValue high) (exactValue x))) := by
  have raised : Exact (if x < low then low else x) (max (exactValue low) (exactValue x)) := by
    split
    · rename_i less
      exact ⟨hl, (max_eq_left ((lt_iff hx hl).1 less).le).symm⟩
    · rename_i least
      exact ⟨hx, (max_eq_right (not_lt.1 (mt (lt_iff hx hl).2 least))).symm⟩
  rw [max_min_distrib_left, max_eq_right ordered, ← raised.value]
  unfold clamp
  simp only
  generalize (if x < low then low else x) = y at raised
  split
  · rename_i less
    exact ⟨hh, (min_eq_left ((lt_iff hh raised.finite).1 less).le).symm⟩
  · rename_i most
    exact ⟨raised.finite, (min_eq_right (not_lt.1 (mt (lt_iff hh raised.finite).2 most))).symm⟩

end

/-! Whole numbers and ratios with their nearest floats. -/

section

variable {k : Int} {negative inexact : Bool} {m : Nat} {e : Int}

def powerBits (k : Int) : Nat := (k + 1023).toNat * fractionUnit

private theorem roundShift_le {drop n : Nat} (some : drop ≠ 0) (most : m ≤ n * 2 ^ drop) :
    roundShift m drop inexact ≤ n := by
  have unit : 0 < 2 ^ drop := Nat.two_pow_pos drop
  have half : 0 < 2 ^ (drop - 1) := Nat.two_pow_pos _
  have kept : m / 2 ^ drop ≤ n := Nat.div_le_of_le_mul (by rwa [Nat.mul_comm])
  have power : ∀ k, Nat.pow 2 k = 2 ^ k := fun _ => rfl
  unfold roundShift
  rw [if_neg some]
  simp only [power]
  split
  · rename_i up
    refine Nat.lt_of_le_of_ne kept fun same => ?_
    have rest : m % 2 ^ drop = 0 := by
      have split := Nat.div_add_mod m (2 ^ drop)
      rw [same, Nat.mul_comm] at split
      omega
    rw [rest] at up
    simp [half.ne] at up
  · exact kept

private theorem rounded_le (inexact : Bool) {unit : Int} {n : Nat}
    (most : (m : ℚ) * 2 ^ e ≤ n * 2 ^ unit) :
    (if unit ≤ e then m * Nat.pow 2 (e - unit).toNat
      else roundShift m (unit - e).toNat inexact) ≤ n := by
  split
  · rename_i le
    rw [two_zpow_split le, ← mul_assoc, ← Nat.cast_mul] at most
    exact Nat.cast_le.1 (le_of_mul_le_mul_right most (zpow_pos two_pos unit))
  · rename_i less
    have le : e ≤ unit := (not_le.1 less).le
    rw [two_zpow_split le, ← mul_assoc, ← Nat.cast_mul] at most
    refine roundShift_le (by omega) ?_
    exact Nat.cast_le.1 (le_of_mul_le_mul_right most (zpow_pos two_pos e))

private theorem le_lastPlace (m : Nat) (e : Int) :
    (m : ℚ) * 2 ^ e ≤ (2 ^ 53 : Nat) * 2 ^ max (e + (m.log2 : Int) - 52) (-1074) := by
  calc
    (m : ℚ) * 2 ^ e ≤ 2 ^ ((m.log2 : Int) + 1 + e) := le_two_zpow_log2 m e
    _ ≤ 2 ^ ((53 : Int) + max (e + (m.log2 : Int) - 52) (-1074)) :=
      zpow_le_zpow_right₀ one_le_two (by omega)
    _ = _ := by rw [zpow_add₀ two_ne_zero]; norm_num

private theorem nearestBits_le (least : -1022 ≤ k) (most : (m : ℚ) * 2 ^ e ≤ 2 ^ k) :
    nearestBits m e inexact ≤ powerBits k := by
  unfold nearestBits powerBits
  split
  · exact Nat.zero_le _
  · rename_i some
    have low : (2 : ℚ) ^ ((m.log2 : Int) + e) ≤ 2 ^ k := (two_zpow_log2_le some e).trans most
    have high := le_lastPlace m e
    have places := (zpow_le_zpow_iff_right₀ (one_lt_two (α := ℚ))).1 low
    have gap : max (e + (m.log2 : Int) - 52) (-1074) + 52 ≤ k := by omega
    have floor : -1074 ≤ max (e + (m.log2 : Int) - 52) (-1074) := le_max_right _ _
    generalize max (e + (m.log2 : Int) - 52) (-1074) = unit at *
    simp only
    refine (Nat.min_le_left _ _).trans ?_
    by_cases tight : unit + 52 = k
    · have sharp : (m : ℚ) * 2 ^ e ≤ ((2 ^ 52 : Nat) : ℚ) * 2 ^ unit := by
        refine most.trans (le_of_eq ?_)
        rw [← tight, add_comm, zpow_add₀ two_ne_zero]
        norm_num
      have := rounded_le inexact sharp
      have field : (k + 1023).toNat = (unit + 1074).toNat + 1 := by omega
      rw [field, Nat.add_mul, Nat.one_mul]
      exact Nat.add_le_add_left this _
    · have := rounded_le inexact high
      have field : (unit + 1074).toNat + 2 ≤ (k + 1023).toNat := by omega
      refine le_trans ?_ (Nat.mul_le_mul_right fractionUnit field)
      rw [Nat.add_mul]
      exact Nat.add_le_add_left this _

theorem ofFloat_ofBits (b : UInt64) : ofFloat (Float.ofBits b) = Binary.ofBits b.toNat := by
  have packed : (Float.ofBits b).toModel.unpack
      = UnpackedFloat.unpack Format.binary64 b.toBitVec := unpack_pack (isPackable_unpack _)
  rw [ofFloat_eq, packed]
  exact (ofBits_toNat b.toBitVec).symm

private theorem subnormal_le {fraction : Nat} (least : -1022 ≤ k)
    (short : fraction < fractionUnit) : (fraction : ℚ) * 2 ^ (-1074 : Int) ≤ 2 ^ k :=
  calc
    (fraction : ℚ) * 2 ^ (-1074 : Int)
      ≤ (fractionUnit : Nat) * 2 ^ (k - 52) :=
        mul_le_mul (Nat.cast_le.2 short.le) (zpow_le_zpow_right₀ one_le_two (by omega))
          (zpow_nonneg zero_le_two _) (Nat.cast_nonneg _)
    _ = 2 ^ k := fractionUnit_mul k

private theorem normal_le {bits : Nat} (least : -1022 ≤ k) (most : bits ≤ powerBits k) :
    ((bits % fractionUnit + fractionUnit : Nat) : ℚ)
      * 2 ^ (((bits / fractionUnit : Nat) : Int) - 1075) ≤ 2 ^ k := by
  have short : bits % fractionUnit < fractionUnit := Nat.mod_lt _ (by decide)
  -- With the exponent of the power itself, there is no room for a fraction.
  by_cases top : bits / fractionUnit = (k + 1023).toNat
  · have last : bits % fractionUnit = 0 := by
      have split := Nat.div_add_mod bits fractionUnit
      rw [top, Nat.mul_comm] at split
      unfold powerBits at most
      omega
    have exponent : ((bits / fractionUnit : Nat) : Int) - 1075 = k - 52 := by omega
    rw [last, exponent, Nat.zero_add, fractionUnit_mul]
  · have below : bits / fractionUnit < (k + 1023).toNat := by
      have := (Nat.div_le_div_right most).trans_eq
        (Nat.mul_div_cancel (k + 1023).toNat (by decide : 0 < fractionUnit))
      omega
    have exponent : ((bits / fractionUnit : Nat) : Int) - 1075 ≤ k - 1 - 52 := by omega
    have double : (2 : ℚ) ^ (k - 1) * 2 = 2 ^ k := by
      rw [← zpow_add_one₀ two_ne_zero, Int.sub_add_cancel]
    calc
      ((bits % fractionUnit + fractionUnit : Nat) : ℚ)
          * 2 ^ (((bits / fractionUnit : Nat) : Int) - 1075)
        ≤ (fractionUnit * 2 : Nat) * 2 ^ (k - 1 - 52) :=
          mul_le_mul (Nat.cast_le.2 (by omega)) (zpow_le_zpow_right₀ one_le_two exponent)
            (zpow_nonneg zero_le_two _) (Nat.cast_nonneg _)
      _ = 2 ^ k := by
        rw [Nat.cast_mul, mul_right_comm, fractionUnit_mul, Nat.cast_ofNat, double]

private theorem within_ofBits {bits : Nat} (least : -1022 ≤ k) (greatest : k ≤ 1023)
    (most : bits ≤ powerBits k) :
    Within k (Float.ofBits (UInt64.ofNat (if negative then bits + signUnit else bits))) := by
  have small : bits ≤ 2046 * fractionUnit := by
    refine most.trans (Nat.mul_le_mul_right _ ?_)
    omega
  obtain ⟨n, held, fields⟩ :
      ∃ n, (UInt64.ofNat (if negative then bits + signUnit else bits)).toNat = n ∧
        n / fractionUnit % 2048 = bits / fractionUnit ∧ n % fractionUnit = bits % fractionUnit := by
    refine ⟨_, rfl, ?_⟩
    rw [UInt64.toNat_ofNat']
    simp only [fractionUnit, signUnit] at *
    cases negative <;> simp only [Bool.false_eq_true, if_false, if_true] <;> omega
  have read := ofFloat_ofBits (UInt64.ofNat (if negative then bits + signUnit else bits))
  rw [held, Binary.ofBits, fields.1, fields.2] at read
  generalize Float.ofBits _ = x at *
  have unequal : bits / fractionUnit ≠ 2047 := by
    simp only [fractionUnit] at small ⊢
    omega
  rw [if_neg unequal] at read
  have finite : isFinite x = true := by
    rw [Binary.isFinite, read]
    by_cases subnormal : bits / fractionUnit = 0
    · rw [if_pos subnormal]
    · rw [if_neg subnormal]
  refine ⟨finite, ?_⟩
  split at read
  · rw [abs_exactValue_of_read read]
    exact subnormal_le least (Nat.mod_lt _ (by decide))
  · rw [abs_exactValue_of_read read]
    exact normal_le least most

theorem within_nearest (least : -1022 ≤ k) (greatest : k ≤ 1023)
    (most : (m : ℚ) * 2 ^ e ≤ 2 ^ k) : Within k (nearest negative m e inexact) :=
  within_ofBits least greatest (nearestBits_le least most)

theorem within_ofRatio {n : Nat} (least : 0 ≤ k) (greatest : k ≤ 1023)
    (most : m ≤ n * 2 ^ k.toNat) : Within k (ofRatio negative m n) := by
  unfold ofRatio
  split
  · refine within_nearest (by omega) greatest ?_
    rw [Nat.cast_zero, zero_mul]
    exact zpow_nonneg zero_le_two _
  · generalize n.log2 + 64 - m.log2 = lift
    refine within_nearest (by omega) greatest ?_
    have power : Nat.pow 2 lift = 2 ^ lift := rfl
    have quotient : m * 2 ^ lift / n ≤ 2 ^ k.toNat * 2 ^ lift := by
      refine Nat.div_le_of_le_mul ?_
      rw [← Nat.mul_assoc]
      exact Nat.mul_le_mul_right _ most
    have whole : ((2 ^ k.toNat : Nat) : ℚ) = 2 ^ k := by
      rw [Nat.cast_pow, Nat.cast_ofNat, ← zpow_natCast, Int.toNat_of_nonneg least]
    rw [power, zpow_neg, zpow_natCast, ← div_eq_mul_inv, div_le_iff₀ (pow_pos two_pos lift),
      ← whole]
    exact_mod_cast quotient

end

end Texture.Number
