/- Texture/Pixel
   digest: Pixels of four bytes: painting over, adding, and the way between straight colours and
   colours multiplied by their opacity. -/

set_option autoImplicit false
set_option relaxedAutoImplicit false

namespace Texture

structure Pixel where
  red : UInt8
  green : UInt8
  blue : UInt8
  alpha : UInt8
  deriving DecidableEq, Repr, Inhabited

namespace Pixel

def clear : Pixel := ⟨0, 0, 0, 0⟩

def mapColor (f : UInt8 → UInt8) (p : Pixel) : Pixel :=
  ⟨f p.red, f p.green, f p.blue, p.alpha⟩

def zipWith (f : UInt8 → UInt8 → UInt8) (p q : Pixel) : Pixel :=
  ⟨f p.red q.red, f p.green q.green, f p.blue q.blue, f p.alpha q.alpha⟩

/-- The sum of two bytes, held at the largest byte. -/
def addByte (x y : UInt8) : UInt8 := UInt8.ofNat (min 255 (x.toNat + y.toNat))

/-- The product of two bytes as fractions of 255, rounded to nearest. -/
def scaleByte (x y : Nat) : UInt8 := UInt8.ofNat ((x * y + 127) / 255)

/-- Paints the second pixel over the first; both are premultiplied. -/
def cover (below above : Pixel) : Pixel :=
  if above.alpha = 0 then below
  else zipWith (fun b a => addByte a (scaleByte b.toNat (255 - above.alpha.toNat))) below above

def add (p q : Pixel) : Pixel := zipWith addByte p q

def premultiply (p : Pixel) : Pixel :=
  if p.alpha = 0 then ⟨0, 0, 0, p.alpha⟩
  else p.mapColor fun c => scaleByte c.toNat p.alpha.toNat

/-- Divides the colour of a premultiplied pixel by its opacity, rounded to nearest and held at the
largest byte. Fully opaque and fully transparent pixels stay as they are. -/
def unpremultiply (p : Pixel) : Pixel :=
  if p.alpha = 0 ∨ p.alpha = 255 then p
  else p.mapColor fun c =>
    UInt8.ofNat (min 255 ((c.toNat * 255 + p.alpha.toNat / 2) / p.alpha.toNat))

/-- No colour byte exceeds the opacity. -/
def IsPremultiplied (p : Pixel) : Prop :=
  p.red ≤ p.alpha ∧ p.green ≤ p.alpha ∧ p.blue ≤ p.alpha

end Pixel

end Texture
