/- Texture/Proofs/Bytes
   digest: Runs of bytes inside of others: where a part lies, reading finds it again. -/

import Mathlib.Tactic.Common
import Texture.Bytes

set_option autoImplicit false
set_option relaxedAutoImplicit false

namespace Texture.Bytes

theorem get_of_lt {bytes : ByteArray} {i : Nat} (h : i < bytes.size) : get bytes i = bytes[i] := by
  rw [get, dif_pos h]

theorem get_push (bytes : ByteArray) (b : UInt8) (i : Nat) :
    get (bytes.push b) i = if i = bytes.size then b else get bytes i := by
  have size : (bytes.push b).size = bytes.size + 1 := ByteArray.size_push
  unfold get
  by_cases last : i = bytes.size
  · rw [dif_pos (by omega), if_pos last]
    simp [ByteArray.getElem_eq_getElem_data, ByteArray.data_push, Array.getElem_push, last]
  · rw [if_neg last]
    by_cases inside : i < bytes.size
    · rw [dif_pos (by omega), dif_pos inside]
      exact Array.getElem_push_lt inside
    · rw [dif_neg (by omega), dif_neg inside]

theorem size_set (bytes : ByteArray) (i : Nat) (b : UInt8) : (bytes.set! i b).size = bytes.size :=
  Array.size_setIfInBounds

theorem get_set {bytes : ByteArray} {i : Nat} (h : i < bytes.size) (b : UInt8) (j : Nat) :
    get (bytes.set! i b) j = if j = i then b else get bytes j := by
  have size := size_set bytes i b
  unfold get
  by_cases same : j = i
  · rw [if_pos same, dif_pos (by omega)]
    simp [ByteArray.set!, ByteArray.getElem_eq_getElem_data, same]
  · rw [if_neg same]
    by_cases inside : j < bytes.size
    · rw [dif_pos (by omega), dif_pos inside]
      exact Array.getElem_setIfInBounds_ne inside (Ne.symm same)
    · rw [dif_neg (by omega), dif_neg inside]

theorem push_eq_append (bytes : ByteArray) (b : UInt8) : bytes.push b = bytes ++ ⟨#[b]⟩ := by
  apply ByteArray.ext
  rw [ByteArray.data_push, ByteArray.data_append, Array.push_eq_append]

private theorem get_append_left {a : ByteArray} (b : ByteArray) {i : Nat} (h : i < a.size) :
    get (a ++ b) i = get a i := by
  have inside : i < (a ++ b).size := by
    rw [ByteArray.size_append]
    omega
  rw [get_of_lt inside, get_of_lt h, ByteArray.getElem_append_left h]

private theorem get_append_right (a b : ByteArray) (i : Nat) :
    get (a ++ b) (a.size + i) = get b i := by
  have size : (a ++ b).size = a.size + b.size := ByteArray.size_append
  by_cases inside : i < b.size
  · rw [get_of_lt (by omega), get_of_lt inside, ByteArray.getElem_append_right (by omega)]
    simp
  · rw [get, get, dif_neg (by omega), dif_neg inside]

theorem ext {a b : ByteArray} (size : a.size = b.size) (h : ∀ i < a.size, get a i = get b i) :
    a = b := by
  refine ByteArray.ext_getElem size ?_
  intro i inside inside'
  rw [← get_of_lt inside, ← get_of_lt inside']
  exact h i inside

private theorem get_extract (bytes : ByteArray) {n i : Nat} (le : n ≤ bytes.size) (h : i < n) :
    get (bytes.extract 0 n) i = get bytes i := by
  have inside : i < (bytes.extract 0 n).size := by
    rw [ByteArray.size_extract]
    omega
  rw [get_of_lt inside, get_of_lt (by omega), ByteArray.getElem_extract]
  simp

theorem extract_succ {bytes : ByteArray} {n : Nat} (h : n < bytes.size) :
    bytes.extract 0 (n + 1) = (bytes.extract 0 n).push (get bytes n) := by
  have size : (bytes.extract 0 n).size = n := by
    rw [ByteArray.size_extract]
    omega
  refine ext ?_ ?_
  · rw [ByteArray.size_push, ByteArray.size_extract, size]
    omega
  · intro i inside
    rw [ByteArray.size_extract] at inside
    rw [get_push, size, get_extract bytes (by omega) (by omega)]
    by_cases last : i = n
    · rw [if_pos last, last]
    · rw [if_neg last, get_extract bytes (by omega) (by omega)]

/-- A part lies in a run of bytes from a place on. -/
def LiesIn (part whole : ByteArray) (pos : Nat) : Prop :=
  ∃ before after, whole = before ++ part ++ after ∧ before.size = pos

namespace LiesIn

variable {a b part whole : ByteArray} {pos : Nat}

theorem refl (whole : ByteArray) : LiesIn whole whole 0 :=
  ⟨ByteArray.empty, ByteArray.empty, by simp, rfl⟩

theorem mono (h : LiesIn part whole pos) (after : ByteArray) :
    LiesIn part (whole ++ after) pos := by
  obtain ⟨before, between, rfl, size⟩ := h
  exact ⟨before, between ++ after, by simp only [ByteArray.append_assoc], size⟩

theorem last (before part : ByteArray) : LiesIn part (before ++ part) before.size :=
  ⟨before, ByteArray.empty, by simp, rfl⟩

theorem left (h : LiesIn (a ++ b) whole pos) : LiesIn a whole pos := by
  obtain ⟨before, after, same, size⟩ := h
  exact ⟨before, b ++ after, by rw [same]; simp only [ByteArray.append_assoc], size⟩

theorem right (h : LiesIn (a ++ b) whole pos) : LiesIn b whole (pos + a.size) := by
  obtain ⟨before, after, same, size⟩ := h
  refine ⟨before ++ a, after, by rw [same]; simp only [ByteArray.append_assoc], ?_⟩
  rw [ByteArray.size_append, size]

theorem le (h : LiesIn part whole pos) : pos + part.size ≤ whole.size := by
  obtain ⟨before, after, rfl, rfl⟩ := h
  simp only [ByteArray.size_append]
  omega

theorem get (h : LiesIn part whole pos) {i : Nat} (inside : i < part.size) :
    Bytes.get whole (pos + i) = Bytes.get part i := by
  obtain ⟨before, after, rfl, rfl⟩ := h
  rw [ByteArray.append_assoc, get_append_right, get_append_left after inside]

theorem extract (h : LiesIn part whole pos) : whole.extract pos (pos + part.size) = part := by
  obtain ⟨before, after, rfl, rfl⟩ := h
  have outer := ByteArray.extract_append_size_add (a := before) (b := part ++ after) (i := 0)
    (j := part.size)
  rw [ByteArray.append_assoc]
  rw [Nat.add_zero] at outer
  rw [outer, ByteArray.extract_append_eq_left rfl]

end LiesIn

def joined (start : ByteArray) (part : Nat → ByteArray) (n : Nat) : ByteArray :=
  n.fold (fun i _ out => out ++ part i) start

section

variable {start : ByteArray} {part : Nat → ByteArray} {n k : Nat}

theorem joined_succ (start : ByteArray) (part : Nat → ByteArray) (n : Nat) :
    joined start part (n + 1) = joined start part n ++ part n := by
  rw [joined, Nat.fold_succ]
  rfl

theorem size_joined (sizes : ∀ i < n, (part i).size = k) :
    (joined start part n).size = start.size + n * k := by
  induction n with
  | zero => simp [joined]
  | succ n ih =>
    rw [joined_succ, ByteArray.size_append, sizes n (by omega), ih fun i less => sizes i (by omega),
      Nat.succ_mul, Nat.add_assoc]

theorem start_liesIn (start : ByteArray) (part : Nat → ByteArray) (n : Nat) :
    LiesIn start (joined start part n) 0 := by
  induction n with
  | zero => exact LiesIn.refl start
  | succ n ih =>
    rw [joined_succ]
    exact ih.mono _

theorem joined_liesIn (start : ByteArray) (sizes : ∀ i < n, (part i).size = k) {i : Nat}
    (h : i < n) : LiesIn (part i) (joined start part n) (start.size + i * k) := by
  induction n with
  | zero => omega
  | succ n ih =>
    have before : ∀ i < n, (part i).size = k := fun i less => sizes i (by omega)
    rw [joined_succ]
    by_cases last : i = n
    · subst last
      rw [← size_joined before]
      exact LiesIn.last _ _
    · exact (ih before (by omega)).mono _

end

theorem size_bigEndian (n : UInt32) : (bigEndian n).size = 4 := rfl

private theorem readBigEndian_bigEndian (n : UInt32) : readBigEndian (bigEndian n) 0 = n.toNat := by
  have b0 : Bytes.get (bigEndian n) 0 = (n >>> 24).toUInt8 := rfl
  have b1 : Bytes.get (bigEndian n) 1 = (n >>> 16).toUInt8 := rfl
  have b2 : Bytes.get (bigEndian n) 2 = (n >>> 8).toUInt8 := rfl
  have b3 : Bytes.get (bigEndian n) 3 = n.toUInt8 := rfl
  have small : n.toNat < 2 ^ 32 := n.toNat_lt
  rw [readBigEndian, b0, b1, b2, b3]
  have s24 : (24 : UInt32).toNat % 32 = 24 := rfl
  have s16 : (16 : UInt32).toNat % 32 = 16 := rfl
  have s8 : (8 : UInt32).toNat % 32 = 8 := rfl
  simp only [UInt32.toNat_toUInt8, UInt32.toNat_shiftRight, Nat.shiftRight_eq_div_pow, s24, s16,
    s8]
  omega

theorem LiesIn.readBigEndian {n : UInt32} {whole : ByteArray} {pos : Nat}
    (h : LiesIn (bigEndian n) whole pos) : readBigEndian whole pos = n.toNat := by
  have read : ∀ i < 4, Bytes.get whole (pos + i) = Bytes.get (bigEndian n) i := fun i less =>
    h.get less
  rw [← readBigEndian_bigEndian n]
  simp only [Bytes.readBigEndian]
  rw [read 1 (by omega), read 2 (by omega), read 3 (by omega), ← read 0 (by omega)]
  rfl

end Texture.Bytes
