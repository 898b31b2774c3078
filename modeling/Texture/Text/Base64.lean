/- Texture/Text/Base64
   digest: Bytes as texts of sixty-four symbols with padding, in their one canonical form. -/

import Texture.Bytes

set_option autoImplicit false
set_option relaxedAutoImplicit false

namespace Texture.Text.Base64

def alphabet : Array Char :=
  "ABCDEFGHIJKLMNOPQRSTUVWXYZabcdefghijklmnopqrstuvwxyz0123456789+/".toList.toArray

def symbol (n : Nat) : Char := alphabet.getD n '='

def value? (b : UInt8) : Option Nat :=
  let n := b.toNat
  if 65 ≤ n ∧ n ≤ 90 then some (n - 65)
  else if 97 ≤ n ∧ n ≤ 122 then some (n - 97 + 26)
  else if 48 ≤ n ∧ n ≤ 57 then some (n - 48 + 52)
  else if n = 43 then some 62
  else if n = 47 then some 63
  else none

def join (a b c : UInt8) : Nat := a.toNat * 65536 + b.toNat * 256 + c.toNat

def first (group : Nat) : Char := symbol (group / 262144)

def second (group : Nat) : Char := symbol (group / 4096 % 64)

def third (group : Nat) : Char := symbol (group / 64 % 64)

def fourth (group : Nat) : Char := symbol (group % 64)

/-- The symbols of the bytes left over after the last whole group, padded to four. -/
def tail (bytes : ByteArray) (start : Nat) : List Char :=
  match bytes.size - start with
  | 1 =>
    let group := join (Bytes.get bytes start) 0 0
    [first group, second group, '=', '=']
  | 2 =>
    let group := join (Bytes.get bytes start) (Bytes.get bytes (start + 1)) 0
    [first group, second group, third group, '=']
  | _ => []

def encode (bytes : ByteArray) : String :=
  let groups := bytes.size / 3
  let body := groups.fold
    (fun i _ text =>
      let group := join (Bytes.get bytes (3 * i)) (Bytes.get bytes (3 * i + 1))
        (Bytes.get bytes (3 * i + 2))
      (((text.push (first group)).push (second group)).push (third group)).push (fourth group))
    ""
  (tail bytes (3 * groups)).foldl String.push body

def readGroup (text : ByteArray) (i : Nat) (bytes : ByteArray) : Option ByteArray := do
  let a ← value? (Bytes.get text i)
  let b ← value? (Bytes.get text (i + 1))
  let c ← value? (Bytes.get text (i + 2))
  let d ← value? (Bytes.get text (i + 3))
  return ((bytes.push (UInt8.ofNat (a * 4 + b / 16))).push
    (UInt8.ofNat (b % 16 * 16 + c / 4))).push (UInt8.ofNat (c % 4 * 64 + d))

/-- Reads the last group, which may be padded; the bits that padding leaves over must be zero. -/
def readLast (text : ByteArray) (i : Nat) (bytes : ByteArray) : Option ByteArray :=
  let padding := '='.toNat.toUInt8
  if Bytes.get text (i + 3) = padding then do
    let a ← value? (Bytes.get text i)
    let b ← value? (Bytes.get text (i + 1))
    let bytes := bytes.push (UInt8.ofNat (a * 4 + b / 16))
    if Bytes.get text (i + 2) = padding then
      if b % 16 = 0 then some bytes else none
    else
      let c ← value? (Bytes.get text (i + 2))
      if c % 4 = 0 then some (bytes.push (UInt8.ofNat (b % 16 * 16 + c / 4))) else none
  else readGroup text i bytes

/-- The bytes of a text, if it is the canonical text of some bytes. -/
def decode (text : String) : Option ByteArray :=
  let symbols := text.toUTF8
  let groups := symbols.size / 4
  if symbols.size % 4 ≠ 0 then none
  else if groups = 0 then some ByteArray.empty
  else do
    let body ← (groups - 1).fold
      (fun i _ (bytes : Option ByteArray) => bytes.bind (readGroup symbols (4 * i)))
      (some (ByteArray.emptyWithCapacity (3 * groups)))
    readLast symbols (4 * (groups - 1)) body

end Texture.Text.Base64
