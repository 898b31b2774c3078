/- Texture/Svg/Definitions
   digest: Gradients, filters and masks under their ids, in order; the first with an id counts. -/

import Texture.Svg.Node

set_option autoImplicit false
set_option relaxedAutoImplicit false

namespace Texture.Svg

open Plane (Affine Box)

inductive Units where
  /-- Fractions of the box around what is painted. -/
  | boundingBox
  /-- Coordinates of the canvas. -/
  | userSpace
  deriving DecidableEq, Repr, Inhabited

structure Region where
  units : Units
  box : Box
  deriving Inhabited

namespace Region

/-- An area in fractions of the box around what is painted, by its corner and its extent. -/
def bounding (x y width height : Float) : Region := ⟨.boundingBox, ⟨x, y, x + width, y + height⟩⟩

def user (box : Box) : Region := ⟨.userSpace, box⟩

/-- The canvas with a margin as wide as itself. -/
def roomy (r : Resolution) : Region := user ⟨-r.edge, -r.edge, 2.0 * r.edge, 2.0 * r.edge⟩

end Region

structure Stop where
  offset : Float
  color : Color
  opacity : Float
  deriving Inhabited

structure LinearGradient where
  id : String
  units : Units
  x1 : Float
  y1 : Float
  x2 : Float
  y2 : Float
  transform : Option Affine
  stops : List Stop
  deriving Inhabited

/-- A step of a filter; inputs and results are named. -/
inductive Primitive where
  | blur (input : String) (deviation : Float) (result : String)
  /-- Four rows of five coefficients for red, green, blue, opacity and one. -/
  | matrix (input : String) (values : List Float) (result : String)
  /-- The later inputs are painted over the earlier ones. -/
  | merge (inputs : List String) (result : String)
  deriving Inhabited

inductive Def where
  | gradient (g : LinearGradient)
  | filter (id : String) (region : Region) (primitives : List Primitive)
  | mask (id : String) (region : Region) (content : List Node)
  deriving Inhabited

def Def.id : Def → String
  | gradient g => g.id
  | filter id _ _ => id
  | mask id _ _ => id

structure Definitions where
  items : List Def
  deriving Inhabited

namespace Definitions

def empty : Definitions := ⟨[]⟩

def get? (ds : Definitions) (id : String) : Option Def := ds.items.find? fun d => d.id == id

def contains (ds : Definitions) (id : String) : Bool := ds.items.any fun d => d.id == id

/-- Appends a definition unless there is one with its id. -/
def insert (ds : Definitions) (d : Def) : Definitions :=
  if ds.contains d.id then ds else ⟨ds.items ++ [d]⟩

/-- Inserts a definition, and tells whether its id was new. -/
def register (ds : Definitions) (d : Def) : Definitions × Bool :=
  if ds.contains d.id then (ds, false) else (⟨ds.items ++ [d]⟩, true)

/-- Appends the definitions whose ids are new. -/
def merge (ds others : Definitions) : Definitions := others.items.foldl insert ds

def ofList (items : List Def) : Definitions := items.foldl insert empty

end Definitions

end Texture.Svg
