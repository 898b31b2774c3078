/- Texture/Xml/Character
   digest: Which characters a text may hold, and which of them are blanks or parts of names. -/

set_option autoImplicit false
set_option relaxedAutoImplicit false

namespace Texture.Xml

def isBlank (c : Char) : Bool := c == ' ' || c == '\t' || c == '\n' || c == '\r'

/-- A character that a text may hold. Controls are left out, blanks excepted, and so are the last
two codes of the first plane. -/
def isAllowed (c : Char) : Bool :=
  if c.toNat < 32 then isBlank c else c.toNat != 65534 && c.toNat != 65535

def nameStarts : List (Nat × Nat) :=
  [(58, 58), (65, 90), (95, 95), (97, 122), (192, 214), (216, 246), (248, 767), (880, 893),
    (895, 8191), (8204, 8205), (8304, 8591), (11264, 12271), (12289, 55295), (63744, 64975),
    (65008, 65533), (65536, 983039)]

def nameRests : List (Nat × Nat) := [(45, 46), (48, 57), (183, 183), (768, 879), (8255, 8256)]

def isWithin (ranges : List (Nat × Nat)) (c : Char) : Bool :=
  ranges.any fun (first, last) => first ≤ c.toNat && c.toNat ≤ last

def isNameStart (c : Char) : Bool := isWithin nameStarts c

def isNamePart (c : Char) : Bool := isWithin nameStarts c || isWithin nameRests c

end Texture.Xml
