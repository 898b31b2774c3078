/- Texture/Number/Binary
   digest: Sixty-four bit floats read as exact dyadic numbers, correct rounding back, and the
   roundings to whole numbers built on them. -/

set_option autoImplicit false
set_option relaxedAutoImplicit false

namespace Texture.Number

/-- A float read exactly: not a number, an infinity, or `±significand · 2 ^ exponent`. -/
inductive Binary where
  | nan
  | infinite (negative : Bool)
  | finite (negative : Bool) (significand : Nat) (exponent : Int)
  deriving DecidableEq, Repr

namespace Binary

/-- The place of the lowest fraction bit above the smallest subnormal step is the exponent field. -/
def fractionUnit : Nat := 4503599627370496

def signUnit : Nat := 9223372036854775808

/-- The bit pattern of the positive infinity; every finite magnitude lies below it. -/
def infinityBits : Nat := 9218868437227405312

def ofBits (bits : Nat) : Binary :=
  let negative := decide (signUnit ≤ bits)
  let field := bits / fractionUnit % 2048
  let fraction := bits % fractionUnit
  if field = 2047 then
    if fraction = 0 then .infinite negative else .nan
  else if field = 0 then
    .finite negative fraction (-1074)
  else
    .finite negative (fraction + fractionUnit) ((field : Int) - 1075)

def ofFloat (x : Float) : Binary := ofBits x.toBits.toNat

/-- A magnitude in units of `2 ^ drop`, rounded to nearest with ties to even; `inexact` says that
the true magnitude lies strictly above the given one by less than its last unit. -/
def roundShift (magnitude drop : Nat) (inexact : Bool) : Nat :=
  if drop = 0 then magnitude
  else
    let kept := magnitude / Nat.pow 2 drop
    let rest := magnitude % Nat.pow 2 drop
    let half := Nat.pow 2 (drop - 1)
    if half < rest || (rest == half && (inexact || kept % 2 == 1)) then kept + 1 else kept

/-- The bit pattern of the float nearest to `magnitude · 2 ^ exponent`. Adding the rounded
significand to the exponent field lets a carry run into the exponent. -/
def nearestBits (magnitude : Nat) (exponent : Int) (inexact : Bool) : Nat :=
  if magnitude = 0 then 0
  else
    let unit := max (exponent + (magnitude.log2 : Int) - 52) (-1074)
    let rounded :=
      if unit ≤ exponent then magnitude * Nat.pow 2 (exponent - unit).toNat
      else roundShift magnitude (unit - exponent).toNat inexact
    min ((unit + 1074).toNat * fractionUnit + rounded) infinityBits

/-- The float nearest to `±magnitude · 2 ^ exponent`, ties to even, with overflow to infinity. -/
def nearest (negative : Bool) (magnitude : Nat) (exponent : Int) (inexact : Bool) : Float :=
  let bits := nearestBits magnitude exponent inexact
  Float.ofBits (UInt64.ofNat (if negative then bits + signUnit else bits))

/-- The float nearest to `±numerator / denominator`: the quotient is taken to more bits than a
float holds, and what is left over only says on which side of a tie the value lies. -/
def ofRatio (negative : Bool) (numerator denominator : Nat) : Float :=
  if numerator = 0 then nearest negative 0 0 false
  else
    let lift := denominator.log2 + 64 - numerator.log2
    let scaled := numerator * Nat.pow 2 lift
    nearest negative (scaled / denominator) (-(lift : Int)) (scaled % denominator != 0)

def notANumber : Float := Float.ofBits 9221120237041090560

def infinity (negative : Bool) : Float :=
  Float.ofBits (UInt64.ofNat (if negative then infinityBits + signUnit else infinityBits))

def ofNat (negative : Bool) (n : Nat) : Float := nearest negative n 0 false

/-- Rounds to a whole number, halves away from zero; the sign is kept, also that of a zero. -/
def roundHalfAway (x : Float) : Float :=
  match ofFloat x with
  | .finite negative significand exponent =>
    if 0 ≤ exponent then x
    else
      let drop := (-exponent).toNat
      ofNat negative ((significand + Nat.pow 2 (drop - 1)) / Nat.pow 2 drop)
  | _ => x

def ceiling (x : Float) : Float :=
  match ofFloat x with
  | .finite negative significand exponent =>
    if 0 ≤ exponent then x
    else
      let unit := Nat.pow 2 (-exponent).toNat
      ofNat negative ((if negative then significand else significand + unit - 1) / unit)
  | _ => x

/-- The whole part of a float that is not negative; negative floats, infinities and what is not a
number count as zero. -/
def wholePart (x : Float) : Nat :=
  match ofFloat x with
  | .finite false significand exponent =>
    if 0 ≤ exponent then significand * Nat.pow 2 exponent.toNat
    else significand / Nat.pow 2 (-exponent).toNat
  | _ => 0

/-- The exact remainder on division by one. It has the sign of the float, also when it is zero. -/
def fractionalPart (x : Float) : Float :=
  match ofFloat x with
  | .finite negative significand exponent =>
    if 0 ≤ exponent then nearest negative 0 0 false
    else nearest negative (significand % Nat.pow 2 (-exponent).toNat) exponent false
  | _ => notANumber

/-- The remainder on division by one, moved up by one when it is negative. The last addition
rounds, so a tiny negative float gives one itself. -/
def remainderOne (x : Float) : Float :=
  let r := fractionalPart x
  if r < 0.0 then r + 1.0 else r

def isFinite (x : Float) : Bool :=
  match ofFloat x with
  | .finite _ _ _ => true
  | _ => false

end Binary

end Texture.Number
