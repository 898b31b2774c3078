/- Texture/Json/Lexeme
   digest: Numbers as they are spelled, and the fast reading of their value. -/

import Texture.Json.Basic
import Texture.Number.Reader

set_option autoImplicit false
set_option relaxedAutoImplicit false

namespace Texture.Json

structure Lexeme where
  negative : Bool
  whole : List Char
  /-- Digits behind the point, if there is one. -/
  fraction : Option (List Char)
  /-- Whether the exponent is below zero, and its digits. -/
  exponent : Option (Bool × List Char)

namespace Lexeme

def digits? (cs : List Char) : Option (List Char × List Char) :=
  match cs.takeWhile Char.isDigit with
  | [] => none
  | ds => some (ds, cs.dropWhile Char.isDigit)

/-- The digits of the whole part: a zero stands alone. -/
def whole? (cs : List Char) : Option (List Char × List Char) :=
  match digits? cs with
  | some ('0' :: _ :: _, _) => none
  | found => found

def fraction? : List Char → Option (Option (List Char) × List Char)
  | '.' :: cs => (digits? cs).map fun (ds, rest) => (some ds, rest)
  | cs => some (none, cs)

def exponent? : List Char → Option (Option (Bool × List Char))
  | [] => some none
  | c :: cs =>
    if c = 'e' ∨ c = 'E' then
      let (negative, cs) := Number.Reader.splitSign cs
      match digits? cs with
      | some (ds, []) => some (some (negative, ds))
      | _ => none
    else none

def ofChars? (cs : List Char) : Option Lexeme := do
  let (negative, cs) := match cs with
    | '-' :: cs => (true, cs)
    | cs => (false, cs)
  let (whole, cs) ← whole? cs
  let (fraction, cs) ← fraction? cs
  let exponent ← exponent? cs
  some ⟨negative, whole, fraction, exponent⟩

def limit : Nat := 18446744073709551615

/-- Takes digits into a number while it fits into sixty-four bits, and counts them. -/
def gather : Nat → Nat → List Char → Nat × Nat
  | n, count, [] => (n, count)
  | n, count, c :: cs =>
    let m := 10 * n + (c.toNat - '0'.toNat)
    if m ≤ limit then gather m (count + 1) cs else (n, count)

/-- Multiplies by a power of ten with one rounding for each factor that a float can hold. A result
beyond all floats is refused. -/
def scale : Nat → Float → Int → Option Float
  | 0, x, _ => some x
  | fuel + 1, x, exponent =>
    if exponent.natAbs ≤ 308 then
      let power := Number.Reader.ofDecimal false 1 exponent.natAbs
      if exponent < 0 then some (x / power)
      else
        let y := x * power
        if Number.Binary.isFinite y then some y else none
    else if x == 0.0 then some x
    else if 0 < exponent then none
    else scale fuel (x / 1e308) (exponent + 308)

/-- The float of a spelling, in two roundings or three: of the leading digits that fit into
sixty-four bits, and of their product with a power of ten. -/
def float? (l : Lexeme) : Option Float :=
  let (n, taken) := gather 0 0 l.whole
  let (n, placed) := gather n 0 (l.fraction.getD [])
  let start : Int := (l.whole.length - taken : Nat) - (placed : Int)
  let signed (x : Float) : Float := if l.negative then -x else x
  match l.exponent with
  | none => (scale 4 (Number.Binary.ofNat false n) start).map signed
  | some (down, ds) =>
    let size := Number.Reader.digitsValue ds
    if 2147483647 < size then
      if n ≠ 0 ∧ down = false then none else some (signed 0.0)
    else
      let exponent := if down then start - (size : Int) else start + (size : Int)
      (scale 4 (Number.Binary.ofNat false n) exponent).map signed

/-- The number of a spelling: whole numbers without point and exponent stay whole if sixty-four bits
hold them, except that the zero below zero is a float. -/
def numeral? (l : Lexeme) : Option Numeral :=
  let n := Number.Reader.digitsValue l.whole
  if l.fraction.isNone && l.exponent.isNone && n ≤ limit then
    if !l.negative then some (.natural n)
    else if 0 < n ∧ n ≤ 9223372036854775808 then some (.negative n)
    else some (.real (-(Number.Binary.ofNat false n)))
  else (float? l).map .real

end Lexeme

end Texture.Json
