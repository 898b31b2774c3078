/- Texture/Number/Power
   digest: Powers of floats that are not negative, through logarithm and exponential in whole-number
   fixed point. -/

import Texture.Number.Binary

set_option autoImplicit false
set_option relaxedAutoImplicit false

namespace Texture.Number.Power

def bits : Nat := 192

def one : Nat := Nat.pow 2 bits

/-- The series of the inverse hyperbolic tangent, from the term of odd index `k` on. -/
def areaTerms (square : Nat) : Nat → Nat → Nat → Nat
  | 0, _, _ => 0
  | fuel + 1, k, power => power / k + areaTerms square fuel (k + 2) (power * square / one)

def logOfMantissa (m : Nat) : Nat :=
  let s := (m - one) * one / (m + one)
  2 * areaTerms (s * s / one) 64 1 s

def logTwo : Nat := logOfMantissa (2 * one)

def log (significand : Nat) (exponent : Int) : Int :=
  let place := significand.log2
  (exponent + (place : Int)) * (logTwo : Int)
    + (logOfMantissa (significand * Nat.pow 2 (bits - place)) : Int)

def expTerms (r : Nat) : Nat → Nat → Nat → Nat
  | 0, _, _ => 0
  | fuel + 1, k, term => term + expTerms r fuel (k + 1) (term * r / one / k)

def exp (t : Int) : Float :=
  if (1024 * one : Int) ≤ t then Binary.infinity false
  else if t ≤ -(1024 * one : Int) then Binary.nearest false 0 0 false
  else
    let shift := t / (logTwo : Int)
    let r := (t % (logTwo : Int)).toNat
    Binary.nearest false (expTerms r 48 1 one) (shift - (bits : Int)) true

def scale (t : Int) (negative : Bool) (significand : Nat) (exponent : Int) : Int :=
  let product := t * (significand : Int) * (if negative then -1 else 1)
  if 0 ≤ exponent then product * Nat.pow 2 exponent.toNat else product / Nat.pow 2 (-exponent).toNat

/-- The power of a base that is not negative; a negative base other than zero gives no number. -/
def power (x y : Float) : Float :=
  match Binary.ofFloat x, Binary.ofFloat y with
  | _, .finite _ 0 _ => 1.0
  | .nan, _ => Binary.notANumber
  | .finite _ 0 _, .finite up _ _ => if up then Binary.infinity false else 0.0
  | .finite _ 0 _, .infinite up => if up then Binary.infinity false else 0.0
  | .infinite false, .finite up _ _ => if up then 0.0 else Binary.infinity false
  | .infinite false, .infinite up => if up then 0.0 else Binary.infinity false
  | .finite false m e, .finite up n f => exp (scale (log m e) up n f)
  | .finite false m e, .infinite up =>
    let t := log m e
    if t = 0 then 1.0 else if (t < 0) = (up = true) then Binary.infinity false else 0.0
  | .finite false m e, .nan => if log m e = 0 then 1.0 else Binary.notANumber
  | _, _ => Binary.notANumber

end Texture.Number.Power
