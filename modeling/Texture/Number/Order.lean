/- Texture/Number/Order
   digest: Comparisons of floats: the larger and the smaller of two, clamping, and the total order
   of bit patterns. -/

import Texture.Number.Binary

set_option autoImplicit false
set_option relaxedAutoImplicit false

namespace Texture.Number

/-- The larger of two floats; what is not a number loses. -/
def larger (x y : Float) : Float :=
  if x.isNaN then y else if y.isNaN then x else if y < x then x else y

def smaller (x y : Float) : Float :=
  if x.isNaN then y else if y.isNaN then x else if x < y then x else y

/-- Moves a float into an interval; what is not a number stays. -/
def clamp (x low high : Float) : Float :=
  let y := if x < low then low else x
  if high < y then high else y

/-- A float held by its bit pattern, so that the sign of what is not a number counts. -/
structure Position where
  bits : UInt64
  deriving DecidableEq, Repr

namespace Position

def ofFloat (x : Float) : Position := ⟨x.toBits⟩

def toFloat (p : Position) : Float := Float.ofBits p.bits

/-- The place of a bit pattern in the total order: negative patterns run downwards and lie below
all others, so that negative zero comes just before zero. -/
def rank (p : Position) : Int :=
  if p.bits.toNat < Binary.signUnit then (p.bits.toNat : Int)
  else (Binary.signUnit : Int) - 1 - (p.bits.toNat : Int)

def zero : Position := ⟨0⟩

def one : Position := ⟨4607182418800017408⟩

def isNumber (p : Position) : Bool :=
  p.bits.toNat % Binary.signUnit ≤ Binary.infinityBits

/-- Moves a position between zero and one. Negative zero and what is not a number stay. -/
def clampUnit (p : Position) : Position :=
  if !p.isNumber then p
  else if p.rank < -1 then zero
  else if one.rank < p.rank then one
  else p

end Position

end Texture.Number
