/- Texture/Plane/Outline
   digest: Outlines of the basic shapes, centred on the origin. -/

import Texture.Number.Order
import Texture.Number.Power
import Texture.Plane.Path

set_option autoImplicit false
set_option relaxedAutoImplicit false

namespace Texture.Plane

structure Arc where
  centre : Point
  radii : Point
  start : Float
  sweep : Float
  /-- The angle by which the axes of the ellipse are turned. -/
  tilt : Float

namespace Arc

/-- How far curves may stray from an arc. -/
def tolerance : Float := 0.1

def sample (arc : Arc) (angle : Float) : Point :=
  Point.turn
    ⟨arc.radii.x * Number.Angle.cosine angle, arc.radii.y * Number.Angle.sine angle⟩ arc.tilt

/-- The number of curves that keep to the tolerance: about four for a full turn of a small ellipse,
and growing with the sixth root of its size. -/
def pieces (arc : Arc) : Float :=
  let error := Number.larger arc.radii.x arc.radii.y / tolerance
  let perTurn := Number.larger (Number.Power.power (1.1163 * error) (1.0 / 6.0)) 3.999999
  Number.Binary.ceiling (perTurn * arc.sweep.abs * (1.0 / fullTurn))

/-- A whole ellipse about the origin with the given radii along the axes. Its longer axis counts as
the first, so it is turned by a quarter where the second radius is longer. Where a radius is not
finite the ellipse has no place. -/
def wholeEllipse (rx ry : Float) : Arc :=
  if Number.Binary.isFinite rx && Number.Binary.isFinite ry then
    if rx.abs < ry.abs then ⟨⟨0.0, 0.0⟩, ⟨ry.abs, rx.abs⟩, 0.0, fullTurn, quarterTurn⟩
    else ⟨⟨0.0, 0.0⟩, ⟨rx.abs, ry.abs⟩, 0.0, fullTurn, 0.0⟩
  else
    let none := Number.Binary.notANumber
    ⟨⟨none, none⟩, ⟨none, none⟩, 0.0, fullTurn, none⟩

def curvesFrom (arc : Arc) (step arm : Float) : Nat → Float → Point → Path
  | 0, _, _ => []
  | n + 1, angle, p =>
    let next := angle + step
    let q := p.add (Point.scale arm (arc.sample (angle + quarterTurn)))
    let s := arc.sample next
    let r := s.sub (Point.scale arm (arc.sample (next + quarterTurn)))
    .curve (arc.centre.add q) (arc.centre.add r) (arc.centre.add s)
      :: curvesFrom arc step arm n next s

def curves (arc : Arc) : Path :=
  let n := arc.pieces
  let step := arc.sweep / n
  let arm := 4.0 / 3.0 * Number.Angle.tangent (0.25 * step).abs
    * (if arc.sweep < 0.0 then -1.0 else 1.0)
  curvesFrom arc step arm (Number.Binary.wholePart n) arc.start (arc.sample arc.start)

end Arc

namespace Outline

/-- Radii of the corners of a box, clockwise from the top left. -/
structure Corners where
  topLeft : Float
  topRight : Float
  bottomRight : Float
  bottomLeft : Float

/-- A box with rounded corners. No radius exceeds half the shorter side. -/
def roundedBox (width height : Float) (corners : Corners) : Path :=
  let x := width / 2.0
  let y := height / 2.0
  let left := Number.smaller (-width / 2.0) x
  let right := Number.larger (-width / 2.0) x
  let top := Number.smaller (-height / 2.0) y
  let bottom := Number.larger (-height / 2.0) y
  let most := Number.smaller (right - left) (bottom - top) / 2.0
  let radius (r : Float) : Float := Number.smaller r.abs most
  let tl := radius corners.topLeft
  let tr := radius corners.topRight
  let br := radius corners.bottomRight
  let bl := radius corners.bottomLeft
  let arc (x y r quarters : Float) : Path :=
    Arc.curves ⟨⟨x, y⟩, ⟨r, r⟩, quarterTurn * quarters, quarterTurn, 0.0⟩
  [.move ⟨left, top + tl⟩] ++ arc (left + tl) (top + tl) tl 2.0
    ++ [.line ⟨right - tr, top⟩] ++ arc (right - tr) (top + tr) tr 3.0
    ++ [.line ⟨right, bottom - br⟩] ++ arc (right - br) (bottom - br) br 0.0
    ++ [.line ⟨left + bl, bottom⟩] ++ arc (left + bl) (bottom - bl) bl 1.0
    ++ [.close]

/-- An ellipse with the given radii along the axes, from the end of its longer axis round. -/
def ellipse (rx ry : Float) : Path :=
  let arc := Arc.wholeEllipse rx ry
  .move (arc.centre.add (arc.sample arc.start)) :: arc.curves

def polarPoint (radius angle : Float) : Point :=
  ⟨radius * Number.Angle.cosine angle, radius * Number.Angle.sine angle⟩

def closed (points : List Point) : Path := Path.ofPoints points ++ [.close]

/-- A star whose spokes and notches alternate, the first spoke at the top. Fewer than three spokes
count as three. -/
def star (spokes : Nat) (outer inner : Float) : Path :=
  let total := max spokes 3 * 2
  closed <| (List.range total).map fun i =>
    let radius := if i % 2 = 0 then outer else inner
    polarPoint radius
      (fullTurn * Number.Binary.ofNat false i / Number.Binary.ofNat false total - quarterTurn)

def ringSteps : Nat := 360

/-- A ring whose radius swings about a mean, so many times in a turn. -/
def wavyRing (radius frequency amplitude : Float) : Path :=
  closed <| (List.range (ringSteps + 1)).map fun i =>
    let angle := Number.Binary.ofNat false i / Number.Binary.ofNat false ringSteps * fullTurn
    polarPoint (radius + Number.Angle.sine (angle * frequency) * amplitude) angle

def beam (length topWidth bottomWidth : Float) : Path :=
  let y := length / 2.0
  let top := topWidth / 2.0
  let bottom := bottomWidth / 2.0
  closed [⟨-top, -y⟩, ⟨top, -y⟩, ⟨bottom, y⟩, ⟨-bottom, y⟩]

end Outline

end Texture.Plane
