/- Texture/Number/Shortest
   digest: The fewest decimal digits that read back as a given float. -/

import Texture.Number.Binary

set_option autoImplicit false
set_option relaxedAutoImplicit false

namespace Texture.Number

/-- A decimal magnitude `digits · 10 ^ exponent`. -/
structure Decimal where
  digits : Nat
  exponent : Int
  deriving DecidableEq, Repr

/-- Where a value goes that lies in the middle between two equally short decimals. -/
inductive Tie where
  /-- To the greater magnitude. -/
  | up
  /-- To the one whose last digit is even. -/
  | even
  deriving DecidableEq, Repr

/-- The choice between a whole number, above which a value lies by some distance, and its
successor, below which it lies by another: the nearer of them, or the one that the rule names. -/
def Tie.nearer (tie : Tie) (d fromBelow fromAbove : Nat) : Nat :=
  if fromBelow < fromAbove then d
  else if fromAbove < fromBelow then d + 1
  else match tie with
    | .up => d + 1
    | .even => d + d % 2

namespace Shortest

def tens (exponent : Int) : Nat := Nat.pow 10 exponent.toNat

def twos (exponent : Int) : Nat := Nat.pow 2 exponent.toNat

/-- The digits of the point of the grid `10 ^ k` that reads back as `significand · 2 ^ exponent`,
if one of the two neighbours of the value does; if both do, of the nearer. The reals that read back
reach half a step to either side, a quarter step below a power of two, and include their ends when
the significand is even. All quantities are brought over one denominator. -/
def onGrid (tie : Tie) (significand : Nat) (exponent k : Int) : Option Nat :=
  let scale := twos (exponent - 2) * tens (-k)
  let unit := twos (2 - exponent) * tens k
  let value := 4 * significand * scale
  let below := if significand = Binary.fractionUnit && decide (-1074 < exponent) then 1 else 2
  let low := (4 * significand - below) * scale
  let high := (4 * significand + 2) * scale
  let even := significand % 2 == 0
  let d := value / unit
  let lowHit := decide (low < d * unit) || (even && low == d * unit)
  let highHit := decide ((d + 1) * unit < high) || (even && (d + 1) * unit == high)
  if lowHit && highHit then
    some (tie.nearer d (value - d * unit) ((d + 1) * unit - value))
  else if lowHit then some d
  else if highHit then some (d + 1)
  else none

def search (tie : Tie) (significand : Nat) (exponent : Int) : Nat → Int → Decimal
  | 0, k => ⟨0, k⟩
  | fuel + 1, k =>
    match onGrid tie significand exponent k with
    | some d => ⟨d, k⟩
    | none => search tie significand exponent fuel (k - 1)

/-- The shortest decimal of a positive magnitude. The search starts above the leading digit and
ends at the latest on the grid of seventeen digits. -/
def ofMagnitude (tie : Tie) (significand : Nat) (exponent : Int) : Decimal :=
  let top := ((significand.log2 : Int) + exponent) * 30103 / 100000 + 2
  search tie significand exponent 24 top

end Shortest

end Texture.Number
