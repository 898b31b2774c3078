/- Texture/Operator/Settings
   digest: The parameters of each operator with their defaults. -/

import Texture.Operator.Gradient

set_option autoImplicit false
set_option relaxedAutoImplicit false

namespace Texture

structure RectangleSettings where
  width : Float := 300.0
  height : Float := 300.0
  topLeft : Float := 0.0
  topRight : Float := 0.0
  bottomRight : Float := 0.0
  bottomLeft : Float := 0.0

structure CircleSettings where
  width : Float := 300.0
  height : Float := 300.0

structure PolygonSettings where
  points : Nat := 5
  outer : Float := 100.0
  inner : Float := 50.0

structure WavyRingSettings where
  radius : Float := 100.0
  frequency : Float := 20.0
  amplitude : Float := 10.0

structure BeamSettings where
  length : Float := 250.0
  topWidth : Float := 5.0
  bottomWidth : Float := 100.0

/-- A colour, laid over the input or filling the canvas. -/
structure ColorSettings where
  color : Color := Color.white
  opacity : Float := 1.0

inductive Combination where
  | union
  | difference
  | intersection
  | exclusion
  deriving DecidableEq, Repr

structure FillSettings where
  enabled : Bool := true
  strokeWidth : Float := 0.0

inductive Halo where
  | glow
  | neon
  deriving DecidableEq, Repr

structure GlowSettings where
  halo : Halo
  radius : Float
  intensity : Float

namespace GlowSettings

def standard : Halo → GlowSettings
  | .glow => ⟨.glow, 20.0, 1.5⟩
  | .neon => ⟨.neon, 15.0, 2.0⟩

def wide (s : GlowSettings) : Float :=
  match s.halo with
  | .glow => 10.0 + s.radius
  | .neon => s.radius

def tight (s : GlowSettings) : Float :=
  match s.halo with
  | .glow => s.radius / 3.0
  | .neon => s.radius / 4.0

end GlowSettings

structure StrokeSettings where
  width : Float := 1.0
  opacity : Float := 1.0

/-- A ramp of opacity across the canvas. -/
structure FadeSettings where
  /-- Degrees; at 90 the ramp runs from left to right. -/
  direction : Float := 90.0
  start : Float := 1.0
  stop : Float := 0.0

/-- A shift in fractions of the canvas. -/
structure TranslateSettings where
  x : Float := 0.0
  y : Float := 0.0

inductive PolarMode where
  /-- Columns become rays and rows become circles. -/
  | rectToPolar
  /-- Rays become rows and circles become columns. -/
  | polarToRect
  deriving DecidableEq, Repr

structure PolarSettings where
  mode : PolarMode := .rectToPolar
  offsetX : Float := 0.0
  offsetY : Float := 0.0
  radialScale : Float := 1.0
  angularScale : Float := 1.0

inductive Settings where
  | rectangle (s : RectangleSettings)
  | circle (s : CircleSettings)
  | polygon (s : PolygonSettings)
  | wavyRing (s : WavyRingSettings)
  | beam (s : BeamSettings)
  | gradient (g : Gradient)
  | color (s : ColorSettings)
  /-- A level of gray. -/
  | value (level : Float)
  | alpha (opacity : Float)
  /-- An uploaded bitmap. -/
  | image (payload : Option String)
  | math (c : Combination)
  | fill (s : FillSettings)
  | glow (s : GlowSettings)
  | softBlur (radius : Float)
  | stroke (s : StrokeSettings)
  | gradientFade (s : FadeSettings)
  | pixelate (size : Nat)
  | translate (s : TranslateSettings)
  | rotate (degrees : Float)
  | scale (factor : Float)
  | polar (s : PolarSettings)
  | output
  | unknown

end Texture
