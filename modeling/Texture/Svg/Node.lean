/- Texture/Svg/Node
   digest: Pictures as trees of shapes, groups with effects, and embedded bitmaps. -/

import Texture.Color
import Texture.Plane.Path
import Texture.Resolution

set_option autoImplicit false
set_option relaxedAutoImplicit false

namespace Texture.Svg

open Plane (Affine Box Path Point)

inductive Paint where
  | none
  | color (c : Color)
  /-- The gradient of an id. -/
  | reference (id : String)
  deriving DecidableEq, Inhabited

structure Style where
  fill : Paint
  fillOpacity : Option Float
  stroke : Paint
  strokeWidth : Option Float
  strokeOpacity : Option Float
  deriving Inhabited

namespace Style

def filled (paint : Paint) : Style := ⟨paint, none, .none, none, none⟩

def solid (c : Color) : Style := filled (.color c)

/-- Filled with white, which shows all of what it masks. -/
def white : Style := solid Color.white

end Style

inductive Geometry where
  | path (p : Path)
  | box (b : Box)
  | circle (centre : Point) (radius : Float)
  | ellipse (centre radii : Point)
  | polygon (points : List Point)
  deriving Inhabited

inductive Blend where
  | normal
  | multiply
  /-- The sum of both, held at full intensity. -/
  | plusLighter
  | exclusion
  deriving DecidableEq, Repr, Inhabited

structure Effects where
  transform : Option Affine
  opacity : Option Float
  /-- The id of a filter. -/
  filter : Option String
  /-- The id of a mask. -/
  mask : Option String
  blend : Blend
  /-- Whether the children blend among themselves only. -/
  isolated : Bool
  deriving Inhabited

namespace Effects

def none : Effects := ⟨.none, .none, .none, .none, .normal, false⟩

/-- The children blend among themselves only. -/
def isolate : Effects := { none with isolated := true }

end Effects

inductive Rendering where
  | smooth
  /-- With hard edges between its pixels. -/
  | pixelated
  deriving DecidableEq, Repr, Inhabited

inductive Node where
  | shape (geometry : Geometry) (style : Style)
  | group (effects : Effects) (children : List Node)
  /-- A bitmap stretched to a box, given by its address. -/
  | image (box : Box) (address : String) (rendering : Rendering)
  deriving Inhabited

namespace Node

def canvas (r : Resolution) (style : Style) : Node := .shape (.box (Box.square r.edge)) style

mutual

def restyle (f : Style → Style) : Node → Node
  | shape geometry style => shape geometry (f style)
  | group effects children => group effects (restyleAll f children)
  | image box address rendering => image box address rendering

def restyleAll (f : Style → Style) : List Node → List Node
  | [] => []
  | n :: ns => restyle f n :: restyleAll f ns

end

end Node

end Texture.Svg
