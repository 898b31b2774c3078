/- Texture/Operator/Kind
   digest: The operators of a texture graph, their families, their names in project files and the
   inputs they read. -/

set_option autoImplicit false
set_option relaxedAutoImplicit false

namespace Texture

inductive Operator where
  | rectangle
  | circle
  | polygon
  | wavyRing
  | beam
  | gradient
  | color
  | value
  | alpha
  | image
  | add
  | subtract
  | multiply
  | divide
  | fill
  | glow
  | neon
  | softBlur
  | stroke
  | gradientFade
  | pixelate
  | translate
  | rotate
  | scale
  | polar
  | output
  /-- An operator that this version does not know; it yields nothing. -/
  | unknown
  deriving DecidableEq, Repr, Inhabited

inductive Family where
  | generator
  | input
  | math
  | filter
  | transform
  | output
  | unknown
  deriving DecidableEq, Repr

inductive Handle where
  | only
  | first
  | second
  deriving DecidableEq, Repr

def Handle.name : Handle → String
  | only => "in"
  | first => "a"
  | second => "b"

namespace Operator

/-- All operators, with their names in project files and in listings. -/
def names : List (Operator × String × String) := [
  (rectangle, "RECTANGLE", "Rectangle"),
  (circle, "CIRCLE", "Circle"),
  (polygon, "POLYGON", "Polygon"),
  (wavyRing, "WAVY_RING", "WavyRing"),
  (beam, "BEAM", "Beam"),
  (gradient, "GRADIENT", "Gradient"),
  (color, "COLOR", "Color"),
  (value, "VALUE", "Value"),
  (alpha, "ALPHA", "Alpha"),
  (image, "IMAGE", "Image"),
  (add, "ADD", "Add"),
  (subtract, "SUBTRACT", "Subtract"),
  (multiply, "MULTIPLY", "Multiply"),
  (divide, "DIVIDE", "Divide"),
  (fill, "FILL", "Fill"),
  (glow, "GLOW", "Glow"),
  (neon, "NEON", "Neon"),
  (softBlur, "SOFT_BLUR", "SoftBlur"),
  (stroke, "STROKE", "Stroke"),
  (gradientFade, "GRADIENT_FADE", "GradientFade"),
  (pixelate, "PIXELATE", "Pixelate"),
  (translate, "TRANSLATE", "Translate"),
  (rotate, "ROTATE", "Rotate"),
  (scale, "SCALE", "Scale"),
  (polar, "POLAR", "Polar"),
  (output, "OUTPUT", "Output"),
  (unknown, "UNKNOWN", "Unknown")]

def storedName (op : Operator) : String :=
  match names.lookup op with
  | some (stored, _) => stored
  | none => ""

def listedName (op : Operator) : String :=
  match names.lookup op with
  | some (_, listed) => listed
  | none => ""

def ofStoredName (name : String) : Operator :=
  match names.find? fun row => row.2.1 == name with
  | some (op, _) => op
  | none => unknown

def family : Operator → Family
  | rectangle | circle | polygon | wavyRing | beam | gradient => .generator
  | color | value | alpha | image => .input
  | add | subtract | multiply | divide => .math
  | fill | glow | neon | softBlur | stroke | gradientFade | pixelate => .filter
  | translate | rotate | scale | polar => .transform
  | output => .output
  | unknown => .unknown

/-- The inputs an operator reads, in the order in which they are evaluated. -/
def handles : Operator → List Handle
  | add | subtract | multiply | divide => [.first, .second]
  | color | alpha | fill | glow | neon | softBlur | stroke | gradientFade | pixelate
  | translate | rotate | scale | polar | output => [.only]
  | rectangle | circle | polygon | wavyRing | beam | gradient | value | image | unknown => []

end Operator

end Texture
