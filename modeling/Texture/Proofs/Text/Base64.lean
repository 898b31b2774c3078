/- Texture/Proofs/Text/Base64
   digest: Every run of bytes is read again from its text. -/

import Texture.Proofs.Bytes
import Texture.Text.Base64

set_option autoImplicit false
set_option relaxedAutoImplicit false

namespace Texture.Text.Base64

open Bytes (get)

def quad (group : Nat) : List Char := [first group, second group, third group, fourth group]

def groupAt (bytes : ByteArray) (i : Nat) : Nat :=
  join (get bytes (3 * i)) (get bytes (3 * i + 1)) (get bytes (3 * i + 2))

/-- A symbol of one of the sixty-four numbers, or the padding. -/
def IsSymbol (c : Char) : Prop := c = '=' ∨ ∃ n < 64, c = symbol n

private theorem value?_symbol :
    ∀ n < 64, value? (symbol n).val.toUInt8 = some n := by decide +kernel

private theorem symbol_unlike :
    ∀ n < 64, (symbol n).val.toUInt8 ≠ '='.toNat.toUInt8 := by decide +kernel

private theorem symbol_size : ∀ n < 64, (symbol n).utf8Size = 1 := by decide +kernel

theorem IsSymbol.size {c : Char} (h : IsSymbol c) : c.utf8Size = 1 := by
  rcases h with rfl | ⟨n, less, rfl⟩
  · rfl
  · exact symbol_size n less

section

variable (x y z : UInt8)

private theorem join_lt : join x y z < 16777216 := by
  have hx := x.toNat_lt
  have hy := y.toNat_lt
  have hz := z.toNat_lt
  rw [join]
  omega

private theorem quad_isSymbol {group : Nat} (h : group < 16777216) :
    ∀ c ∈ quad group, IsSymbol c := by
  simp only [quad, List.mem_cons, List.not_mem_nil, or_false]
  rintro c (rfl | rfl | rfl | rfl)
  · exact Or.inr ⟨_, by omega, rfl⟩
  · exact Or.inr ⟨_, by omega, rfl⟩
  · exact Or.inr ⟨_, by omega, rfl⟩
  · exact Or.inr ⟨_, by omega, rfl⟩

end

private theorem tail_isSymbol (bytes : ByteArray) (start : Nat) :
    ∀ c ∈ tail bytes start, IsSymbol c := by
  intro c mem
  unfold tail at mem
  split at mem
  · have quads := quad_isSymbol (join_lt (get bytes start) 0 0)
    simp only [List.mem_cons, List.not_mem_nil, or_false] at mem
    rcases mem with rfl | rfl | rfl | rfl
    · exact quads _ (by simp [quad])
    · exact quads _ (by simp [quad])
    · exact Or.inl rfl
    · exact Or.inl rfl
  · have quads := quad_isSymbol (join_lt (get bytes start) (get bytes (start + 1)) 0)
    simp only [List.mem_cons, List.not_mem_nil, or_false] at mem
    rcases mem with rfl | rfl | rfl | rfl
    · exact quads _ (by simp [quad])
    · exact quads _ (by simp [quad])
    · exact quads _ (by simp [quad])
    · exact Or.inl rfl
  · simp at mem

section

variable {bytes : ByteArray} {start : Nat}

theorem tail_none (h : bytes.size = start) : tail bytes start = [] := by
  rw [tail, show bytes.size - start = 0 by omega]
  rfl

theorem tail_one (h : bytes.size = start + 1) :
    tail bytes start = [first (join (get bytes start) 0 0), second (join (get bytes start) 0 0),
      '=', '='] := by
  rw [tail, show bytes.size - start = 1 by omega]
  rfl

theorem tail_two (h : bytes.size = start + 2) :
    tail bytes start = [first (join (get bytes start) (get bytes (start + 1)) 0),
      second (join (get bytes start) (get bytes (start + 1)) 0),
      third (join (get bytes start) (get bytes (start + 1)) 0), '='] := by
  rw [tail, show bytes.size - start = 2 by omega]
  rfl

end

private theorem toList_foldl_push (cs : List Char) (text : String) :
    (cs.foldl String.push text).toList = text.toList ++ cs := by
  induction cs generalizing text with
  | nil => simp
  | cons c cs ih => rw [List.foldl_cons, ih, String.toList_push, List.append_assoc]; rfl

theorem toList_encode (bytes : ByteArray) :
    (encode bytes).toList =
      (List.range (bytes.size / 3)).flatMap (fun i => quad (groupAt bytes i)) ++
        tail bytes (3 * (bytes.size / 3)) := by
  have body : ∀ n : Nat, (n.fold (fun i _ text =>
      let group := join (get bytes (3 * i)) (get bytes (3 * i + 1)) (get bytes (3 * i + 2))
      (((text.push (first group)).push (second group)).push (third group)).push (fourth group))
      "").toList = (List.range n).flatMap fun i => quad (groupAt bytes i) := by
    intro n
    induction n with
    | zero => rfl
    | succ n ih =>
      rw [Nat.fold_succ, List.range_succ, List.flatMap_append]
      simp only [String.toList_push, ih, List.append_assoc]
      rfl
  rw [encode, toList_foldl_push, body]

theorem encode_isSymbol (bytes : ByteArray) : ∀ c ∈ (encode bytes).toList, IsSymbol c := by
  intro c mem
  rw [toList_encode, List.mem_append, List.mem_flatMap] at mem
  rcases mem with ⟨i, -, mem⟩ | mem
  · exact quad_isSymbol (join_lt _ _ _) c mem
  · exact tail_isSymbol bytes _ c mem

def bytesOf (cs : List Char) : ByteArray := (cs.map fun c => c.val.toUInt8).toByteArray

private theorem bytesOf_append (cs ds : List Char) :
    bytesOf (cs ++ ds) = bytesOf cs ++ bytesOf ds := by
  rw [bytesOf, List.map_append, List.toByteArray_append]
  rfl

theorem size_bytesOf (cs : List Char) : (bytesOf cs).size = cs.length := by
  simp [bytesOf]

theorem get_bytesOf {cs : List Char} {i : Nat} (h : i < cs.length) :
    get (bytesOf cs) i = cs[i].val.toUInt8 := by
  have inside : i < (bytesOf cs).size := by rwa [size_bytesOf]
  rw [Bytes.get_of_lt inside, ByteArray.getElem_eq_getElem_data]
  simp [bytesOf]

theorem toUTF8_of_small {text : String} (h : ∀ c ∈ text.toList, c.utf8Size = 1) :
    text.toUTF8 = bytesOf text.toList := by
  have chars : ∀ cs : List Char, (∀ c ∈ cs, c.utf8Size = 1) →
      cs.flatMap String.utf8EncodeChar = cs.map fun c => c.val.toUInt8 := by
    intro cs
    induction cs with
    | nil => exact fun _ => rfl
    | cons c cs ih =>
      intro small
      rw [List.forall_mem_cons] at small
      rw [List.flatMap_cons, String.utf8EncodeChar_eq_singleton small.1, ih small.2]
      rfl
  have own : text.toUTF8 = text.toList.utf8Encode := by
    rw [String.toUTF8_eq_toByteArray, ← String.toByteArray_ofList, String.ofList_toList]
  rw [own, List.utf8Encode, chars _ h, bytesOf]

private theorem toUTF8_encode (bytes : ByteArray) :
    (encode bytes).toUTF8 =
      bytesOf ((List.range (bytes.size / 3)).flatMap fun i => quad (groupAt bytes i)) ++
        bytesOf (tail bytes (3 * (bytes.size / 3))) := by
  rw [toUTF8_of_small fun c mem => (encode_isSymbol bytes c mem).size, toList_encode,
    bytesOf_append]

private theorem bytesOf_quads (bytes : ByteArray) (n : Nat) :
    bytesOf ((List.range n).flatMap fun i => quad (groupAt bytes i)) =
      Bytes.joined ByteArray.empty (fun i => bytesOf (quad (groupAt bytes i))) n := by
  induction n with
  | zero => rfl
  | succ n ih =>
    rw [List.range_succ, List.flatMap_append, List.flatMap_singleton, bytesOf_append, ih,
      Bytes.joined_succ]

/-- From a place on, a run of bytes spells out small characters. -/
def Spells (text : ByteArray) (pos : Nat) (cs : List Char) : Prop :=
  ∀ i (h : i < cs.length), get text (pos + i) = cs[i].val.toUInt8

private theorem Spells.of_liesIn {text : ByteArray} {pos : Nat} {cs : List Char}
    (lies : Bytes.LiesIn (bytesOf cs) text pos) : Spells text pos cs := by
  intro i inside
  rw [lies.get (by rwa [size_bytesOf]), get_bytesOf inside]

def Groups (text bytes : ByteArray) (n : Nat) : Prop :=
  ∀ i < n, Spells text (4 * i) (quad (groupAt bytes i))

section

variable {text : ByteArray} {pos : Nat} (x y z : UInt8)

private theorem readGroup_quad (spells : Spells text pos (quad (join x y z)))
    (out : ByteArray) : readGroup text pos out = some (((out.push x).push y).push z) := by
  have hx := x.toNat_lt
  have hy := y.toNat_lt
  have hz := z.toNat_lt
  have whole : join x y z = x.toNat * 65536 + y.toNat * 256 + z.toNat := rfl
  have s0 : get text pos = (symbol (join x y z / 262144)).val.toUInt8 :=
    spells 0 (by simp [quad])
  have s1 : get text (pos + 1) = (symbol (join x y z / 4096 % 64)).val.toUInt8 :=
    spells 1 (by simp [quad])
  have s2 : get text (pos + 2) = (symbol (join x y z / 64 % 64)).val.toUInt8 :=
    spells 2 (by simp [quad])
  have s3 : get text (pos + 3) = (symbol (join x y z % 64)).val.toUInt8 :=
    spells 3 (by simp [quad])
  have first : join x y z / 262144 * 4 + join x y z / 4096 % 64 / 16 = x.toNat := by omega
  have second : join x y z / 4096 % 64 % 16 * 16 + join x y z / 64 % 64 / 4 = y.toNat := by omega
  have third : join x y z / 64 % 64 % 4 * 64 + join x y z % 64 = z.toNat := by omega
  simp only [readGroup, s0, s1, s2, s3, value?_symbol _ (show join x y z / 262144 < 64 by omega),
    value?_symbol _ (Nat.mod_lt _ (show 64 > 0 by omega)), Option.bind_eq_bind, Option.bind_some,
    first, second, third, UInt8.ofNat_toNat]
  rfl

private theorem readLast_quad (spells : Spells text pos (quad (join x y z)))
    (out : ByteArray) : readLast text pos out = some (((out.push x).push y).push z) := by
  have s3 : get text (pos + 3) = (symbol (join x y z % 64)).val.toUInt8 :=
    spells 3 (by simp [quad])
  have unlike := symbol_unlike (join x y z % 64) (Nat.mod_lt _ (by omega))
  rw [← s3] at unlike
  simp only [readLast]
  rw [if_neg unlike, readGroup_quad x y z spells]

private theorem readLast_one (spells : Spells text pos
    [first (join x 0 0), second (join x 0 0), '=', '=']) (out : ByteArray) :
    readLast text pos out = some (out.push x) := by
  have hx := x.toNat_lt
  have whole : join x 0 0 = x.toNat * 65536 := by simp [join]
  have s0 : get text pos = (symbol (join x 0 0 / 262144)).val.toUInt8 :=
    spells 0 (by simp)
  have s1 : get text (pos + 1) = (symbol (join x 0 0 / 4096 % 64)).val.toUInt8 :=
    spells 1 (by simp)
  have s2 : get text (pos + 2) = '='.toNat.toUInt8 := spells 2 (by simp)
  have s3 : get text (pos + 3) = '='.toNat.toUInt8 := spells 3 (by simp)
  have byte : join x 0 0 / 262144 * 4 + join x 0 0 / 4096 % 64 / 16 = x.toNat := by omega
  have spare : join x 0 0 / 4096 % 64 % 16 = 0 := by omega
  have a := value?_symbol _ (show join x 0 0 / 262144 < 64 by omega)
  have b := value?_symbol _ (Nat.mod_lt (join x 0 0 / 4096) (show 64 > 0 by omega))
  rw [← s0] at a
  rw [← s1] at b
  simp only [readLast]
  rw [if_pos s3, a, Option.bind_eq_bind, Option.bind_some, b]
  simp only [Option.bind_some]
  rw [if_pos s2, if_pos spare, byte, UInt8.ofNat_toNat]

private theorem readLast_two (spells : Spells text pos
    [first (join x y 0), second (join x y 0), third (join x y 0), '='])
    (out : ByteArray) : readLast text pos out = some ((out.push x).push y) := by
  have hx := x.toNat_lt
  have hy := y.toNat_lt
  have whole : join x y 0 = x.toNat * 65536 + y.toNat * 256 := by simp [join]
  have s0 : get text pos = (symbol (join x y 0 / 262144)).val.toUInt8 :=
    spells 0 (by simp)
  have s1 : get text (pos + 1) = (symbol (join x y 0 / 4096 % 64)).val.toUInt8 :=
    spells 1 (by simp)
  have s2 : get text (pos + 2) = (symbol (join x y 0 / 64 % 64)).val.toUInt8 :=
    spells 2 (by simp)
  have s3 : get text (pos + 3) = '='.toNat.toUInt8 := spells 3 (by simp)
  have unlike := symbol_unlike (join x y 0 / 64 % 64) (Nat.mod_lt _ (by omega))
  have one : join x y 0 / 262144 * 4 + join x y 0 / 4096 % 64 / 16 = x.toNat := by omega
  have two : join x y 0 / 4096 % 64 % 16 * 16 + join x y 0 / 64 % 64 / 4 = y.toNat := by omega
  have spare : join x y 0 / 64 % 64 % 4 = 0 := by omega
  have a := value?_symbol _ (show join x y 0 / 262144 < 64 by omega)
  have b := value?_symbol _ (Nat.mod_lt (join x y 0 / 4096) (show 64 > 0 by omega))
  have c := value?_symbol _ (Nat.mod_lt (join x y 0 / 64) (show 64 > 0 by omega))
  rw [← s0] at a
  rw [← s1] at b
  rw [← s2] at c unlike
  simp only [readLast]
  rw [if_pos s3, a, Option.bind_eq_bind, Option.bind_some, b]
  simp only [Option.bind_some]
  rw [if_neg unlike, c, Option.bind_some, if_pos spare, one, two, UInt8.ofNat_toNat,
    UInt8.ofNat_toNat]

end

private theorem fold_readGroup (bytes : ByteArray) {text : ByteArray} {n : Nat}
    (le : 3 * n ≤ bytes.size) (groups : Groups text bytes n) (c : Nat) :
    n.fold (fun i _ (out : Option ByteArray) => out.bind (readGroup text (4 * i)))
      (some (ByteArray.emptyWithCapacity c)) = some (bytes.extract 0 (3 * n)) := by
  induction n with
  | zero =>
    have nothing : bytes.extract 0 (3 * 0) = ByteArray.emptyWithCapacity c := by simp; rfl
    rw [nothing]
    rfl
  | succ n ih =>
    rw [Nat.fold_succ, ih (by omega) fun i less => groups i (by omega), Option.bind_some,
      readGroup_quad _ _ _ (groups n (by omega)), Nat.mul_succ, Bytes.extract_succ (by omega),
      Bytes.extract_succ (by omega), Bytes.extract_succ (by omega)]

private theorem decode_of_groups {text : String} {bytes : ByteArray} {n : Nat}
    (size : text.toUTF8.size = 4 * n + 4) (le : 3 * n ≤ bytes.size)
    (groups : Groups text.toUTF8 bytes n)
    (last : readLast text.toUTF8 (4 * n) (bytes.extract 0 (3 * n)) = some bytes) :
    decode text = some bytes := by
  unfold decode
  simp only
  rw [size, if_neg (by omega), if_neg (by omega), show (4 * n + 4) / 4 - 1 = n by omega,
    Option.bind_eq_bind, fold_readGroup bytes le groups, Option.bind_some, last]

/-- Every run of bytes is read again from its text. -/
theorem decode_encode (bytes : ByteArray) : decode (encode bytes) = some bytes := by
  have whole : bytes.extract 0 bytes.size = bytes := ByteArray.extract_zero_size
  obtain ⟨n, count⟩ : ∃ n, n = bytes.size / 3 := ⟨_, rfl⟩
  have text := toUTF8_encode bytes
  rw [← count, bytesOf_quads] at text
  have sizes : ∀ i < n, (bytesOf (quad (groupAt bytes i))).size = 4 := fun _ _ => rfl
  have groups : Groups (encode bytes).toUTF8 bytes n := by
    intro i less
    refine Spells.of_liesIn ?_
    have lies := (Bytes.joined_liesIn ByteArray.empty sizes less).mono
      (bytesOf (tail bytes (3 * n)))
    rwa [← text, ByteArray.size_empty, Nat.zero_add, Nat.mul_comm i 4] at lies
  have size : (encode bytes).toUTF8.size = 4 * n + (tail bytes (3 * n)).length := by
    rw [text, ByteArray.size_append, Bytes.size_joined sizes, size_bytesOf, ByteArray.size_empty,
      Nat.zero_add, Nat.mul_comm]
  have rest : Spells (encode bytes).toUTF8 (4 * n) (tail bytes (3 * n)) := by
    refine Spells.of_liesIn ?_
    have last := Bytes.LiesIn.last
      (Bytes.joined ByteArray.empty (fun i => bytesOf (quad (groupAt bytes i))) n)
      (bytesOf (tail bytes (3 * n)))
    rwa [← text, Bytes.size_joined sizes, ByteArray.size_empty, Nat.zero_add, Nat.mul_comm n 4]
      at last
  -- After the whole groups no byte is left over, or one, or two.
  rcases (show bytes.size % 3 = 0 ∨ bytes.size % 3 = 1 ∨ bytes.size % 3 = 2 by omega) with
    none | one | two
  · rw [tail_none (by omega), List.length_nil, Nat.add_zero] at size
    cases n with
    | zero =>
      have empty : bytes = ByteArray.empty := ByteArray.size_eq_zero_iff.mp (by omega)
      unfold decode
      simp only
      rw [size, if_neg (by omega), if_pos (by omega), empty]
    | succ n =>
      have all : 3 * n + 1 + 1 + 1 = bytes.size := by omega
      refine decode_of_groups size (by omega) (fun i less => groups i (by omega)) ?_
      rw [readLast_quad _ _ _ (groups n (by omega)), ← Bytes.extract_succ (by omega),
        ← Bytes.extract_succ (by omega), ← Bytes.extract_succ (by omega), all, whole]
  · have all : 3 * n + 1 = bytes.size := by omega
    rw [tail_one (by omega)] at rest size
    refine decode_of_groups size (by omega) groups ?_
    rw [readLast_one _ rest, ← Bytes.extract_succ (by omega), all, whole]
  · have all : 3 * n + 1 + 1 = bytes.size := by omega
    rw [tail_two (by omega)] at rest size
    refine decode_of_groups size (by omega) groups ?_
    rw [readLast_two _ _ rest, ← Bytes.extract_succ (by omega), ← Bytes.extract_succ (by omega),
      all, whole]

end Texture.Text.Base64
