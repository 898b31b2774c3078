/- Texture/Plane/Affine
   digest: Points and boxes of the plane, and maps that keep lines straight and parallel. -/

import Texture.Number.Angle

set_option autoImplicit false
set_option relaxedAutoImplicit false

namespace Texture.Plane

structure Point where
  x : Float
  y : Float
  deriving Inhabited

namespace Point

def add (p q : Point) : Point := ⟨p.x + q.x, p.y + q.y⟩

def sub (p q : Point) : Point := ⟨p.x - q.x, p.y - q.y⟩

def scale (k : Float) (p : Point) : Point := ⟨k * p.x, k * p.y⟩

def turn (p : Point) (angle : Float) : Point :=
  let s := Number.Angle.sine angle
  let c := Number.Angle.cosine angle
  ⟨p.x * c - p.y * s, p.x * s + p.y * c⟩

end Point

/-- A box with sides along the axes, given by two opposite corners. -/
structure Box where
  left : Float
  top : Float
  right : Float
  bottom : Float
  deriving Inhabited

namespace Box

def width (b : Box) : Float := b.right - b.left

def height (b : Box) : Float := b.bottom - b.top

def square (edge : Float) : Box := ⟨0.0, 0.0, edge, edge⟩

end Box

/-- The map that sends `(x, y)` to `(a x + c y + e, b x + d y + f)`. -/
structure Affine where
  a : Float
  b : Float
  c : Float
  d : Float
  e : Float
  f : Float
  deriving Inhabited

namespace Affine

def translate (v : Point) : Affine := ⟨1.0, 0.0, 0.0, 1.0, v.x, v.y⟩

def rotate (angle : Float) : Affine :=
  let s := Number.Angle.sine angle
  let c := Number.Angle.cosine angle
  ⟨c, s, -s, c, 0.0, 0.0⟩

def stretch (x y : Float) : Affine := ⟨x, 0.0, 0.0, y, 0.0, 0.0⟩

def scale (k : Float) : Affine := stretch k k

/-- The first map after the second. -/
def after (m n : Affine) : Affine :=
  ⟨m.a * n.a + m.c * n.b, m.b * n.a + m.d * n.b,
    m.a * n.c + m.c * n.d, m.b * n.c + m.d * n.d,
    m.a * n.e + m.c * n.f + m.e, m.b * n.e + m.d * n.f + m.f⟩

/-- A map that is done about a centre in place of the origin. -/
def about (m : Affine) (centre : Point) : Affine :=
  let moved := m.after (translate ⟨-centre.x, -centre.y⟩)
  { moved with e := moved.e + centre.x, f := moved.f + centre.y }

def apply (m : Affine) (p : Point) : Point :=
  ⟨m.a * p.x + m.c * p.y + m.e, m.b * p.x + m.d * p.y + m.f⟩

def toList (m : Affine) : List Float := [m.a, m.b, m.c, m.d, m.e, m.f]

end Affine

def ofDegrees (degrees : Float) : Float := degrees * (3.141592653589793 / 180.0)

def fullTurn : Float := 6.283185307179586

def quarterTurn : Float := 1.5707963267948966

end Texture.Plane
