/- Texture/Color
   digest: Opaque colours of three bytes and their hexadecimal form. -/

set_option autoImplicit false
set_option relaxedAutoImplicit false

namespace Texture

structure Color where
  red : UInt8
  green : UInt8
  blue : UInt8
  deriving DecidableEq, Repr, Inhabited

namespace Color

def gray (level : UInt8) : Color := ⟨level, level, level⟩

def white : Color := gray 255

def black : Color := gray 0

def hexDigit (n : Nat) : Char :=
  Char.ofNat (if n < 10 then n + '0'.toNat else n - 10 + 'a'.toNat)

def hexByte (b : UInt8) : String :=
  String.ofList [hexDigit (b.toNat / 16), hexDigit (b.toNat % 16)]

/-- The form of a colour in paint attributes: a hash sign and six digits. -/
def hex (c : Color) : String :=
  "#" ++ hexByte c.red ++ hexByte c.green ++ hexByte c.blue

end Color

end Texture
