/- Texture/Operator/Gradient
   digest: Editable colour gradients whose stops stay in the order of their offsets. -/

import Texture.Color
import Texture.Number.Order

set_option autoImplicit false
set_option relaxedAutoImplicit false

namespace Texture

open Number (Position)

structure GradientStop where
  offset : Position
  color : Color
  opacity : Float

namespace GradientStop

def ofOffset (offset : Position) (color : Color) : GradientStop := ⟨offset.clampUnit, color, 1.0⟩

def precedes (s t : GradientStop) : Bool := decide (s.offset.rank ≤ t.offset.rank)

end GradientStop

structure Gradient where
  stops : List GradientStop
  directionX : Float
  directionY : Float
  /-- Every offset is raised to this power when the gradient is drawn. -/
  power : Float

namespace Gradient

/-- Stops in the order of their offsets; those with equal offsets keep their order. -/
def sort (stops : List GradientStop) : List GradientStop :=
  stops.mergeSort GradientStop.precedes

/-- From black on the left to white on the right. -/
def standard : Gradient :=
  ⟨[.ofOffset Position.zero Color.black, .ofOffset Position.one Color.white], 1.0, 0.0, 1.0⟩

def ofStops (stops : List GradientStop) : Gradient := { standard with stops := sort stops }

/-- Adds a stop behind those with the same offset; its offset is moved between zero and one. -/
def insert (g : Gradient) (s : GradientStop) : Gradient :=
  { g with stops := sort (g.stops ++ [{ s with offset := s.offset.clampUnit }]) }

/-- Moves the stop of an index to an offset, moved between zero and one; none if there is no such
stop. -/
def setOffset (g : Gradient) (index : Nat) (offset : Position) : Option Gradient :=
  if index < g.stops.length then
    some { g with
      stops := sort (g.stops.modify index fun s => { s with offset := offset.clampUnit }) }
  else none

def remove (g : Gradient) (index : Nat) : Gradient × Option GradientStop :=
  ({ g with stops := g.stops.eraseIdx index }, g.stops[index]?)

end Gradient

end Texture
