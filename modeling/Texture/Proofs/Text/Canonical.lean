/- Texture/Proofs/Text/Canonical
   digest: The only text that is read as a run of bytes is the one these bytes are written as. -/

import Texture.Proofs.Text.Base64

set_option autoImplicit false
set_option relaxedAutoImplicit false

namespace Texture.Text.Base64

open Bytes (get)

private theorem value?_inverse : ∀ k : Fin 256, ∀ n ∈ value? (UInt8.ofNat k),
    n < 64 ∧ UInt8.ofNat k = (symbol n).val.toUInt8 := by decide +kernel

private theorem of_value? {b : UInt8} {n : Nat} (h : value? b = some n) :
    n < 64 ∧ b = (symbol n).val.toUInt8 := by
  have inverse := value?_inverse ⟨b.toNat, b.toNat_lt⟩ n
  rw [UInt8.ofNat_toNat] at inverse
  exact inverse h

namespace Spells

variable {text : ByteArray} {pos : Nat}

private theorem append {cs ds : List Char} (front : Spells text pos cs)
    (back : Spells text (pos + cs.length) ds) : Spells text pos (cs ++ ds) := by
  intro i inside
  rw [List.length_append] at inside
  by_cases early : i < cs.length
  · rw [List.getElem_append_left early]
    exact front i early
  · rw [List.getElem_append_right (by omega), ← back (i - cs.length) (by omega)]
    congr 1
    omega

private theorem four {a b c d : Char} (ha : get text pos = a.val.toUInt8)
    (hb : get text (pos + 1) = b.val.toUInt8) (hc : get text (pos + 2) = c.val.toUInt8)
    (hd : get text (pos + 3) = d.val.toUInt8) : Spells text pos [a, b, c, d] := by
  rintro (_ | _ | _ | _ | i) inside
  · exact ha
  · exact hb
  · exact hc
  · exact hd
  · simp only [List.length_cons, List.length_nil] at inside
    omega

private theorem flatMap {part : Nat → List Char} {n : Nat} (length : ∀ i, (part i).length = 4)
    (groups : ∀ i < n, Spells text (4 * i) (part i)) :
    Spells text 0 ((List.range n).flatMap part) ∧
      ((List.range n).flatMap part).length = 4 * n := by
  induction n with
  | zero => exact ⟨nofun, rfl⟩
  | succ n ih =>
    obtain ⟨front, size⟩ := ih fun i less => groups i (by omega)
    rw [List.range_succ, List.flatMap_append, List.flatMap_singleton]
    refine ⟨front.append ?_, ?_⟩
    · rw [Nat.zero_add, size]
      exact groups n (by omega)
    · rw [List.length_append, size, length]
      omega

private theorem eq_bytesOf {cs : List Char} (spells : Spells text 0 cs)
    (size : text.size = cs.length) : text = bytesOf cs := by
  refine Bytes.ext (by rw [size, size_bytesOf]) fun i inside => ?_
  rw [get_bytesOf (by omega), ← spells i (by omega), Nat.zero_add]

end Spells

private theorem quad_join {a b c d : Nat} (ha : a < 64) (hb : b < 64) (hc : c < 64) (hd : d < 64) :
    quad (join (UInt8.ofNat (a * 4 + b / 16)) (UInt8.ofNat (b % 16 * 16 + c / 4))
      (UInt8.ofNat (c % 4 * 64 + d))) = [symbol a, symbol b, symbol c, symbol d] := by
  have whole : join (UInt8.ofNat (a * 4 + b / 16)) (UInt8.ofNat (b % 16 * 16 + c / 4))
      (UInt8.ofNat (c % 4 * 64 + d)) = a * 262144 + b * 4096 + c * 64 + d := by
    simp only [join, UInt8.toNat_ofNat']
    omega
  have h1 : (a * 262144 + b * 4096 + c * 64 + d) / 262144 = a := by omega
  have h2 : (a * 262144 + b * 4096 + c * 64 + d) / 4096 % 64 = b := by omega
  have h3 : (a * 262144 + b * 4096 + c * 64 + d) / 64 % 64 = c := by omega
  have h4 : (a * 262144 + b * 4096 + c * 64 + d) % 64 = d := by omega
  rw [whole, quad, first, second, third, fourth, h1, h2, h3, h4]

section

variable {text out bytes : ByteArray} {pos : Nat}

private theorem of_readGroup (read : readGroup text pos out = some bytes) :
    ∃ x y z, bytes = ((out.push x).push y).push z ∧ Spells text pos (quad (join x y z)) := by
  simp only [readGroup, Option.bind_eq_bind, Option.bind_eq_some_iff] at read
  obtain ⟨a, ha, b, hb, c, hc, d, hd, last⟩ := read
  obtain ⟨ha, sa⟩ := of_value? ha
  obtain ⟨hb, sb⟩ := of_value? hb
  obtain ⟨hc, sc⟩ := of_value? hc
  obtain ⟨hd, sd⟩ := of_value? hd
  refine ⟨_, _, _, (Option.some.inj last).symm, ?_⟩
  rw [quad_join ha hb hc hd]
  exact Spells.four sa sb sc sd

/-- What the last group of symbols can be: three bytes, or two or one with padding behind. -/
inductive Last (text : ByteArray) (pos : Nat) (out : ByteArray) : ByteArray → Prop
  | three {x y z : UInt8} (spells : Spells text pos (quad (join x y z))) :
      Last text pos out (((out.push x).push y).push z)
  | two {x y : UInt8} (spells : Spells text pos
      [first (join x y 0), second (join x y 0), third (join x y 0), '=']) :
      Last text pos out ((out.push x).push y)
  | one {x : UInt8} (spells : Spells text pos
      [first (join x 0 0), second (join x 0 0), '=', '=']) : Last text pos out (out.push x)

private theorem of_readLast (read : readLast text pos out = some bytes) :
    Last text pos out bytes := by
  unfold readLast at read
  simp only at read
  split at read
  · rename_i padded
    simp only [Option.bind_eq_bind, Option.bind_eq_some_iff] at read
    obtain ⟨a, ha, b, hb, read⟩ := read
    obtain ⟨ha, sa⟩ := of_value? ha
    obtain ⟨hb, sb⟩ := of_value? hb
    split at read
    · rename_i twice
      obtain ⟨spare, same⟩ := Option.ite_none_right_eq_some.mp read
      obtain rfl := Option.some.inj same
      -- The bits behind the byte are zero, so these symbols are those of the byte alone.
      have digits := quad_join ha hb (show 0 < 64 by omega) (show 0 < 64 by omega)
      simp only [quad, spare, List.cons.injEq] at digits
      obtain ⟨h1, h2, -⟩ := digits
      rw [← h1] at sa
      rw [← h2] at sb
      exact Last.one (Spells.four sa sb twice padded)
    · obtain ⟨c, hc, read⟩ := Option.bind_eq_some_iff.mp read
      obtain ⟨hc, sc⟩ := of_value? hc
      obtain ⟨spare, same⟩ := Option.ite_none_right_eq_some.mp read
      obtain rfl := Option.some.inj same
      have digits := quad_join ha hb hc (show 0 < 64 by omega)
      simp only [quad, spare, List.cons.injEq] at digits
      obtain ⟨h1, h2, h3, -⟩ := digits
      rw [← h1] at sa
      rw [← h2] at sb
      rw [← h3] at sc
      exact Last.two (Spells.four sa sb sc padded)
  · obtain ⟨x, y, z, rfl, spells⟩ := of_readGroup read
    exact Last.three spells

namespace Groups

variable {n : Nat}

private theorem spells (groups : Groups text out n) :
    Spells text 0 ((List.range n).flatMap fun i => quad (groupAt out i)) ∧
      ((List.range n).flatMap fun i => quad (groupAt out i)).length = 4 * n :=
  Spells.flatMap (fun _ => rfl) groups

private theorem push (groups : Groups text out n) (le : 3 * n ≤ out.size) (x : UInt8) :
    Groups text (out.push x) n := by
  intro i less
  have same : groupAt (out.push x) i = groupAt out i := by
    simp only [groupAt, Bytes.get_push]
    rw [if_neg (by omega), if_neg (by omega), if_neg (by omega)]
  rw [same]
  exact groups i less

private theorem succ {x y z : UInt8} (groups : Groups text out n) (size : out.size = 3 * n)
    (last : Spells text (4 * n) (quad (join x y z))) :
    Groups text (((out.push x).push y).push z) (n + 1) := by
  have one : (out.push x).size = 3 * n + 1 := by rw [ByteArray.size_push, size]
  have two : ((out.push x).push y).size = 3 * n + 2 := by rw [ByteArray.size_push, one]
  intro i less
  rcases Nat.lt_succ_iff_lt_or_eq.mp less with earlier | rfl
  · exact (((groups.push (by omega) x).push (by omega) y).push (by omega) z) i earlier
  · have same : groupAt (((out.push x).push y).push z) i = join x y z := by
      simp only [groupAt, Bytes.get_push, size, one, two]
      simp
    rw [same]
    exact last

end Groups

private theorem of_fold_readGroup {n c : Nat}
    (read : n.fold (fun i _ (out : Option ByteArray) => out.bind (readGroup text (4 * i)))
      (some (ByteArray.emptyWithCapacity c)) = some out) :
    out.size = 3 * n ∧ Groups text out n := by
  induction n generalizing out with
  | zero =>
    obtain rfl := Option.some.inj read
    exact ⟨rfl, nofun⟩
  | succ n ih =>
    rw [Nat.fold_succ, Option.bind_eq_some_iff] at read
    obtain ⟨before, front, last⟩ := read
    obtain ⟨size, groups⟩ := ih front
    obtain ⟨x, y, z, rfl, group⟩ := of_readGroup last
    exact ⟨by simp only [ByteArray.size_push, size]; omega, groups.succ size group⟩

private theorem Last.spells {n : Nat} (last : Last text (4 * n) out bytes) (size : out.size = 3 * n)
    (groups : Groups text out n) :
    Spells text 0 (encode bytes).toList ∧ (encode bytes).toList.length = 4 * n + 4 := by
  -- One case for each number of bytes that the last group may hold.
  rw [toList_encode]
  cases last with
  | @three x y z group =>
    have whole : (((out.push x).push y).push z).size = 3 * (n + 1) := by
      simp only [ByteArray.size_push, size]
      omega
    rw [tail_none (by omega), whole, List.append_nil, Nat.mul_div_cancel_left _ (by omega)]
    exact (groups.succ size group).spells
  | @two x y group =>
    have one : (out.push x).size = 3 * n + 1 := by rw [ByteArray.size_push, size]
    have whole : ((out.push x).push y).size = 3 * n + 2 := by rw [ByteArray.size_push, one]
    have byte : get ((out.push x).push y) (3 * n) = x := by
      simp [Bytes.get_push, size, one]
    have byte' : get ((out.push x).push y) (3 * n + 1) = y := by
      simp [Bytes.get_push, one]
    obtain ⟨front, length⟩ := ((groups.push (by omega) x).push (by omega) y).spells
    rw [whole, show (3 * n + 2) / 3 = n by omega, tail_two whole, byte, byte']
    refine ⟨front.append ?_, by rw [List.length_append, length]; rfl⟩
    rw [length, Nat.zero_add]
    exact group
  | @one x group =>
    have whole : (out.push x).size = 3 * n + 1 := by rw [ByteArray.size_push, size]
    have byte : get (out.push x) (3 * n) = x := by simp [Bytes.get_push, size]
    obtain ⟨front, length⟩ := (groups.push (by omega) x).spells
    rw [whole, show (3 * n + 1) / 3 = n by omega, tail_one whole, byte]
    refine ⟨front.append ?_, by rw [List.length_append, length]; rfl⟩
    rw [length, Nat.zero_add]
    exact group

end

private theorem eq_encode_of_decode {text : String} {bytes : ByteArray}
    (read : decode text = some bytes) : text = encode bytes := by
  have own : (encode bytes).toUTF8 = bytesOf (encode bytes).toList :=
    toUTF8_of_small fun c mem => (encode_isSymbol bytes c mem).size
  suffices same : text.toUTF8 = (encode bytes).toUTF8 by
    rw [String.toUTF8_eq_toByteArray, String.toUTF8_eq_toByteArray] at same
    exact String.toByteArray_inj.mp same
  unfold decode at read
  simp only [ne_eq, ite_not] at read
  obtain ⟨whole, read⟩ := Option.ite_none_right_eq_some.mp read
  split at read
  · rename_i none
    obtain rfl := Option.some.inj read
    have empty : text.toUTF8 = ByteArray.empty := ByteArray.size_eq_zero_iff.mp (by omega)
    rw [empty]
    rfl
  · obtain ⟨body, front, back⟩ := Option.bind_eq_some_iff.mp read
    obtain ⟨size, groups⟩ := of_fold_readGroup front
    obtain ⟨spells, length⟩ := (of_readLast back).spells size groups
    rw [own]
    exact spells.eq_bytesOf (by omega)

/-- The texts that are read are exactly the written ones. -/
theorem decode_eq_some_iff {text : String} {bytes : ByteArray} :
    decode text = some bytes ↔ text = encode bytes := by
  refine ⟨eq_encode_of_decode, ?_⟩
  rintro rfl
  exact decode_encode bytes

end Texture.Text.Base64
