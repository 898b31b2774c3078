/- Texture/Proofs/Zlib/Stored
   digest: Every run of bytes is unpacked again from the stream that stores it. -/

import Texture.Proofs.Bytes
import Texture.Zlib.Stream

set_option autoImplicit false
set_option relaxedAutoImplicit false

namespace Texture.Zlib

open Bytes (LiesIn get)

namespace Inflate

variable {data : ByteArray} {pos n : Nat}

private theorem bits_first (h : pos < data.size) :
    bits data (8 * pos) 1 = some ((get data pos).toNat % 2, 8 * pos + 1) := by
  have byte := (get data pos).toNat_lt
  rw [bits, if_neg (by omega), show 8 * pos / 8 = pos by omega, show 8 * pos % 8 = 0 by omega]
  simp only [Nat.pow_eq, Nat.pow_zero, Nat.pow_one, Nat.div_one]
  congr 2
  omega

private theorem bits_second (h : pos < data.size) :
    bits data (8 * pos + 1) 2 = some ((get data pos).toNat / 2 % 4, 8 * pos + 3) := by
  have byte := (get data pos).toNat_lt
  rw [bits, if_neg (by omega), show (8 * pos + 1) / 8 = pos by omega,
    show (8 * pos + 1) % 8 = 1 by omega]
  simp only [Nat.pow_eq, Nat.pow_one]
  congr 2
  omega

end Inflate

private theorem size_blockHeader (last : Bool) (size : Nat) :
    (blockHeader last size).size = 5 := rfl

private theorem blocks_stored {data part : ByteArray} {pos size fuel : Nat} {last : Bool}
    (out : ByteArray) (sized : part.size = size) (small : size ≤ blockLimit)
    (lies : LiesIn (blockHeader last size ++ part) data pos) :
    Inflate.blocks data (fuel + 1) (8 * pos) out =
      if last then some (8 * (pos + 5 + size), out ++ part)
      else Inflate.blocks data fuel (8 * (pos + 5 + size)) (out ++ part) := by
  subst sized
  have limit : part.size ≤ 65535 := small
  have le := lies.le
  rw [ByteArray.size_append, size_blockHeader] at le
  have header : ∀ i < 5, get data (pos + i) = get (blockHeader last part.size) i :=
    fun i less => lies.left.get less
  have kind : get data pos = if last then 1 else 0 := header 0 (by omega)
  have low : get data (pos + 1) = UInt8.ofNat (part.size % 256) := header 1 (by omega)
  have high : get data (pos + 2) = UInt8.ofNat (part.size / 256) := header 2 (by omega)
  have low' : get data (pos + 3) = UInt8.ofNat ((65535 - part.size) % 256) := header 3 (by omega)
  have high' : get data (pos + 4) = UInt8.ofNat ((65535 - part.size) / 256) := header 4 (by omega)
  have body : data.extract (pos + 5) (pos + 5 + part.size) = part := lies.right.extract
  have first : (get data pos).toNat % 2 = if last then 1 else 0 := by
    rw [kind]
    cases last <;> rfl
  have second : (get data pos).toNat / 2 % 4 = 0 := by
    rw [kind]
    cases last <;> rfl
  -- The length is sent twice, the second time with all bits inverted.
  have stored : Inflate.stored data (8 * pos + 3) out =
      some (8 * (pos + 5 + part.size), out ++ part) := by
    have size : (get data (pos + 1)).toNat + (get data (pos + 1 + 1)).toNat * 256 = part.size := by
      rw [low, high, UInt8.toNat_ofNat', UInt8.toNat_ofNat']
      omega
    have check : (get data (pos + 1 + 2)).toNat + (get data (pos + 1 + 3)).toNat * 256 =
        65535 - part.size := by
      rw [low', high', UInt8.toNat_ofNat', UInt8.toNat_ofNat']
      omega
    rw [Inflate.stored, show (8 * pos + 3 + 7) / 8 = pos + 1 by omega]
    simp only [size, check]
    rw [if_neg (by omega), if_pos (by omega), body]
  rw [Inflate.blocks, Inflate.bits_first (by omega), Option.bind_eq_bind, Option.bind_some]
  simp only [Option.bind_eq_bind]
  rw [Inflate.bits_second (by omega), Option.bind_some, first, second]
  simp only [stored, Option.bind_some]
  cases last <;> rfl

section

variable (bytes : ByteArray)

def wholeBlock (i : Nat) : ByteArray :=
  blockHeader false blockLimit ++ bytes.extract (i * blockLimit) ((i + 1) * blockLimit)

def lastBlock (n : Nat) : ByteArray :=
  blockHeader true (bytes.size - n * blockLimit) ++ bytes.extract (n * blockLimit) bytes.size

private theorem wholeBlocks_le : (bytes.size - 1) / blockLimit * blockLimit ≤ bytes.size :=
  Nat.le_trans (Nat.div_mul_le_self _ _) (Nat.sub_le _ _)

private theorem store_eq :
    store bytes = Bytes.joined ⟨#[0x78, 0x01]⟩ (wholeBlock bytes) ((bytes.size - 1) / blockLimit)
      ++ lastBlock bytes ((bytes.size - 1) / blockLimit)
      ++ Bytes.bigEndian (Checksum.adler bytes) := by
  simp only [store, Bytes.joined, wholeBlock, lastBlock, ByteArray.append_assoc]

variable {bytes} {n i : Nat}

private theorem size_extract_block (h : (i + 1) * blockLimit ≤ bytes.size) :
    (bytes.extract (i * blockLimit) ((i + 1) * blockLimit)).size = blockLimit := by
  rw [ByteArray.size_extract]
  rw [Nat.succ_mul] at *
  omega

private theorem block_le (whole : n * blockLimit ≤ bytes.size) (less : i < n) :
    (i + 1) * blockLimit ≤ bytes.size :=
  Nat.le_trans (Nat.mul_le_mul_right _ less) whole

private theorem size_wholeBlock (h : (i + 1) * blockLimit ≤ bytes.size) :
    (wholeBlock bytes i).size = 5 + blockLimit := by
  rw [wholeBlock, ByteArray.size_append, size_extract_block h, size_blockHeader]

private theorem size_extract_last :
    (bytes.extract (n * blockLimit) bytes.size).size = bytes.size - n * blockLimit := by
  rw [ByteArray.size_extract, Nat.min_self]

theorem size_store_le (bytes : ByteArray) : (store bytes).size ≤ 2 * bytes.size + 11 := by
  obtain ⟨n, count⟩ : ∃ n, n = (bytes.size - 1) / blockLimit := ⟨_, rfl⟩
  have whole : n * blockLimit ≤ bytes.size := by
    rw [count]
    exact wholeBlocks_le bytes
  have few : 5 * n ≤ bytes.size := by
    have more : n * 5 ≤ n * blockLimit := Nat.mul_le_mul_left n (by decide)
    omega
  have sizes : ∀ i < n, (wholeBlock bytes i).size = 5 + blockLimit := fun i less =>
    size_wholeBlock (block_le whole less)
  have start : ByteArray.size ⟨#[0x78, 0x01]⟩ = 2 := rfl
  rw [store_eq, ← count, ByteArray.size_append, ByteArray.size_append, Bytes.size_joined sizes,
    lastBlock, ByteArray.size_append, size_extract_last, size_blockHeader, Bytes.size_bigEndian,
    start, Nat.mul_add]
  omega

end

private theorem blocks_store {bytes data : ByteArray} {n : Nat}
    (whole : n * blockLimit ≤ bytes.size) (few : bytes.size ≤ (n + 1) * blockLimit)
    (front : ∀ i < n, LiesIn (wholeBlock bytes i) data (2 + i * (5 + blockLimit)))
    (last : LiesIn (lastBlock bytes n) data (2 + n * (5 + blockLimit)))
    (left : Nat) (le : left ≤ n) (fuel : Nat) (enough : left < fuel) :
    Inflate.blocks data fuel (8 * (2 + (n - left) * (5 + blockLimit)))
        (bytes.extract 0 ((n - left) * blockLimit)) =
      some (8 * (2 + n * (5 + blockLimit) + 5 + (bytes.size - n * blockLimit)), bytes) := by
  -- The induction is on the whole blocks that are left: what was read is the front of the bytes.
  obtain ⟨fuel, rfl⟩ : ∃ rest, fuel = rest + 1 := ⟨fuel - 1, by omega⟩
  induction left generalizing fuel with
  | zero =>
    have small : bytes.size - n * blockLimit ≤ blockLimit := by
      rw [Nat.succ_mul] at few
      omega
    rw [Nat.sub_zero, blocks_stored _ size_extract_last small last, if_pos rfl,
      ByteArray.extract_append_extract, Nat.zero_min, Nat.max_eq_right whole,
      ByteArray.extract_zero_size]
  | succ left ih =>
    obtain ⟨fuel, rfl⟩ : ∃ rest, fuel = rest + 1 := ⟨fuel - 1, by omega⟩
    obtain ⟨i, rfl⟩ : ∃ i, n = i + 1 + left := ⟨n - (left + 1), by omega⟩
    have here : i + 1 + left - (left + 1) = i := by omega
    have there : i + 1 + left - left = i + 1 := by omega
    have inside : (i + 1) * blockLimit ≤ bytes.size := block_le whole (by omega)
    have order : i * blockLimit ≤ (i + 1) * blockLimit := Nat.mul_le_mul_right _ (by omega)
    have place : 2 + i * (5 + blockLimit) + 5 + blockLimit = 2 + (i + 1) * (5 + blockLimit) := by
      rw [Nat.succ_mul]
      omega
    have next := ih (by omega) fuel (by omega)
    rw [there] at next
    rw [here, blocks_stored _ (size_extract_block inside) (Nat.le_refl _) (front i (by omega)),
      if_neg Bool.false_ne_true, ByteArray.extract_append_extract, Nat.zero_min,
      Nat.max_eq_right order, place, next]

/-- Every run of bytes is unpacked again from the stream that stores it. -/
theorem unpack_store (bytes : ByteArray) : unpack (store bytes) = some bytes := by
  have stream := store_eq bytes
  obtain ⟨n, count⟩ : ∃ n, n = (bytes.size - 1) / blockLimit := ⟨_, rfl⟩
  rw [← count] at stream
  have whole : n * blockLimit ≤ bytes.size := by
    rw [count]
    exact wholeBlocks_le bytes
  have few : bytes.size ≤ (n + 1) * blockLimit := by
    have less := Nat.lt_mul_div_succ (bytes.size - 1) (show 0 < blockLimit by decide)
    rw [← count, Nat.mul_comm] at less
    omega
  have sizes : ∀ i < n, (wholeBlock bytes i).size = 5 + blockLimit := fun i less =>
    size_wholeBlock (block_le whole less)
  -- Where the parts of the stream lie: whole blocks, the last one, and the check sum.
  have front : ∀ i < n, LiesIn (wholeBlock bytes i) (store bytes) (2 + i * (5 + blockLimit)) := by
    intro i less
    rw [stream]
    exact ((Bytes.joined_liesIn _ sizes less).mono _).mono _
  have last : LiesIn (lastBlock bytes n) (store bytes) (2 + n * (5 + blockLimit)) := by
    have behind := LiesIn.last (Bytes.joined ⟨#[0x78, 0x01]⟩ (wholeBlock bytes) n)
      (lastBlock bytes n)
    rw [Bytes.size_joined sizes] at behind
    rw [stream]
    exact behind.mono _
  have sum : LiesIn (Bytes.bigEndian (Checksum.adler bytes)) (store bytes)
      (2 + n * (5 + blockLimit) + 5 + (bytes.size - n * blockLimit)) := by
    have behind := LiesIn.last (Bytes.joined ⟨#[0x78, 0x01]⟩ (wholeBlock bytes) n
      ++ lastBlock bytes n) (Bytes.bigEndian (Checksum.adler bytes))
    rw [← stream, ByteArray.size_append, Bytes.size_joined sizes, lastBlock,
      ByteArray.size_append, size_extract_last, size_blockHeader, ← Nat.add_assoc] at behind
    exact behind
  have head : LiesIn ⟨#[0x78, 0x01]⟩ (store bytes) 0 := by
    rw [stream]
    exact ((Bytes.start_liesIn _ _ n).mono _).mono _
  have method : get (store bytes) 0 = 0x78 := head.get (i := 0) (by decide)
  have flags : get (store bytes) 1 = 0x01 := head.get (i := 1) (by decide)
  have room := sum.le
  rw [Bytes.size_bigEndian] at room
  -- There are fewer blocks than bits, which is the fuel of the loop.
  have enough : n < 8 * (store bytes).size + 1 := by
    have many : n ≤ n * (5 + blockLimit) := Nat.le_mul_of_pos_right n (by omega)
    omega
  have inflated := blocks_store whole few front last n (Nat.le_refl n) _ enough
  have empty : bytes.extract 0 0 = ByteArray.empty := by simp
  rw [Nat.sub_self, Nat.zero_mul, Nat.zero_mul, empty] at inflated
  generalize 2 + n * (5 + blockLimit) + 5 + (bytes.size - n * blockLimit) = stop at *
  have behind : (8 * stop + 7) / 8 = stop := by omega
  have inflate : Inflate.inflate (store bytes) 2 = some (stop, bytes) := by
    rw [Inflate.inflate, inflated, Option.bind_eq_bind, Option.bind_some]
    simp only [behind]
  rw [unpack, if_neg (by omega)]
  simp only [method, flags]
  rw [if_neg (by decide), inflate, Option.bind_eq_bind, Option.bind_some]
  exact if_pos ⟨room, sum.readBigEndian⟩

end Texture.Zlib
