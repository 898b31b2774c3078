/- Texture/Number/Angle
   digest: Sine, cosine, tangent and the angle of a plane vector, computed in whole-number fixed
   point and rounded once at the end. -/

import Texture.Number.Binary

set_option autoImplicit false
set_option relaxedAutoImplicit false

namespace Texture.Number.Angle

/-- Fraction bits of the fixed point in which series are summed. -/
def bits : Nat := 192

def one : Nat := Nat.pow 2 bits

/-- Fraction bits to which the circle constant is held: enough to reduce the largest float. -/
def circleBits : Nat := 1280

/-- The alternating series of the arctangent of `1 / q`, from the term of odd index `k` on. -/
def inverseTerms (q : Nat) : Nat → Nat → Nat → Int
  | 0, _, _ => 0
  | fuel + 1, k, power => (power / k : Int) - inverseTerms q fuel (k + 2) (power / (q * q))

/-- The circle constant with thirty-two guard bits dropped, by Machin's formula. -/
def pi : Nat :=
  let unit := Nat.pow 2 (circleBits + 32)
  let sum := 16 * inverseTerms 5 300 1 (unit / 5) - 4 * inverseTerms 239 100 1 (unit / 239)
  sum.toNat / Nat.pow 2 32

def shortPi : Nat := pi / Nat.pow 2 (circleBits - bits)

/-- The Taylor series whose terms have factorial steps `k`, `k + 1`, alternating in sign. -/
def taylor (square : Nat) : Nat → Nat → Nat → Int
  | 0, _, _ => 0
  | fuel + 1, k, term =>
    (term : Int) - taylor square fuel (k + 2) (term * square / one / (k * (k + 1)))

/-- Sine and cosine of an angle between zero and a quarter of the circle constant. -/
def series (r : Nat) : Nat × Nat :=
  let square := r * r / one
  ((taylor square 30 2 r).toNat, (taylor square 30 1 one).toNat)

def quadrant (r : Nat) : Nat × Nat :=
  if r ≤ shortPi / 4 then series r
  else
    let (s, c) := series (shortPi / 2 - r)
    (c, s)

/-- Sine and cosine of a magnitude `significand · 2 ^ exponent`, each with its sign: the magnitude
is reduced modulo a right angle and the quotient selects the quadrant. -/
def sineCosine (significand : Nat) (exponent : Int) : (Bool × Nat) × (Bool × Nat) :=
  let scaled := significand * Nat.pow 2 (exponent + (circleBits : Int)).toNat
  let right := pi / 2
  let (s, c) := quadrant (scaled % right / Nat.pow 2 (circleBits - bits))
  match scaled / right % 4 with
  | 0 => ((false, s), (false, c))
  | 1 => ((false, c), (true, s))
  | 2 => ((true, s), (true, c))
  | _ => ((true, c), (false, s))

/-- Below this many powers of two an angle and its sine round to the same float. -/
def isTiny (significand : Nat) (exponent : Int) : Bool :=
  significand == 0 || decide ((significand.log2 : Int) + exponent < -28)

def sine (x : Float) : Float :=
  match Binary.ofFloat x with
  | .finite negative significand exponent =>
    if isTiny significand exponent then x
    else
      let ((flip, s), _) := sineCosine significand exponent
      Binary.nearest (negative != flip) s (-(bits : Int)) true
  | _ => Binary.notANumber

def cosine (x : Float) : Float :=
  match Binary.ofFloat x with
  | .finite _ significand exponent =>
    if isTiny significand exponent then 1.0
    else
      let (_, (flip, c)) := sineCosine significand exponent
      Binary.nearest flip c (-(bits : Int)) true
  | _ => Binary.notANumber

def tangent (x : Float) : Float :=
  match Binary.ofFloat x with
  | .finite negative significand exponent =>
    if isTiny significand exponent then x
    else
      let ((flipSine, s), (flipCosine, c)) := sineCosine significand exponent
      Binary.ofRatio (negative != (flipSine != flipCosine)) s c
  | _ => Binary.notANumber

/-- Euler's series of the arctangent, whose terms shrink by `2 k / (2 k + 1) · ratio`. -/
def eulerTerms (ratio : Nat) : Nat → Nat → Nat → Nat
  | 0, _, _ => 0
  | fuel + 1, k, term => term + eulerTerms ratio fuel (k + 2) (term * k / (k + 1) * ratio / one)

def euler (terms t : Nat) : Nat :=
  let square := t * t / one
  eulerTerms (square * one / (one + square)) terms 2 (t * one / (one + square))

def eighths : Array Nat := (Array.range 9).map fun k => euler 200 (k * one / 8)

/-- The arctangent of a tangent between zero and one: the difference to the next eighth below has
a tangent of at most one eighth. -/
def arctangent (t : Nat) : Nat :=
  let k := t * 8 / one
  let c := k * one / 8
  eighths.getD k 0 + euler 36 ((t - c) * one / (one + t * c / one))

/-- The angle of the vector with the given magnitudes of its two coordinates, in the first
quadrant. -/
def firstQuadrant (y x : Nat) : Nat :=
  if y ≤ x then arctangent (y * one / x)
  else shortPi / 2 - arctangent (x * one / y)

def quarters (negative : Bool) (n : Nat) : Float :=
  Binary.nearest negative (shortPi * n) (-(bits : Int) - 2) true

/-- The angle of the vector `(x, y)` between minus and plus half a turn. On the axes and for
infinite coordinates the signs of zeros and infinities decide. -/
def ofVector (y x : Float) : Float :=
  match Binary.ofFloat y, Binary.ofFloat x with
  | .nan, _ => Binary.notANumber
  | _, .nan => Binary.notANumber
  | .infinite up, .infinite left => quarters up (if left then 3 else 1)
  | .infinite up, .finite _ _ _ => quarters up 2
  | .finite up _ _, .infinite left => if left then quarters up 4 else Binary.nearest up 0 0 false
  | .finite up m e, .finite left n f =>
    if m = 0 then (if left then quarters up 4 else y)
    else if n = 0 then quarters up 2
    else
      let drop := (m.log2 : Int) + e - ((n.log2 : Int) + f)
      if !left && decide (drop < -30) then y / x
      else
        let low := min e f
        let angle := firstQuadrant (m * Nat.pow 2 (e - low).toNat) (n * Nat.pow 2 (f - low).toNat)
        Binary.nearest up (if left then shortPi - angle else angle) (-(bits : Int)) true

end Texture.Number.Angle
