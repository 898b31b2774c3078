/- Texture/Bytes
   digest: Single bytes of a run of bytes, and numbers in four of them. -/

set_option autoImplicit false
set_option relaxedAutoImplicit false

namespace Texture.Bytes

/-- The byte at an index; beyond the end every byte counts as zero. -/
def get (bytes : ByteArray) (i : Nat) : UInt8 :=
  if h : i < bytes.size then bytes[i] else 0

/-- A number as four bytes, the most significant first. -/
def bigEndian (n : UInt32) : ByteArray :=
  ⟨#[(n >>> 24).toUInt8, (n >>> 16).toUInt8, (n >>> 8).toUInt8, n.toUInt8]⟩

def readBigEndian (bytes : ByteArray) (i : Nat) : Nat :=
  (((get bytes i).toNat * 256 + (get bytes (i + 1)).toNat) * 256
    + (get bytes (i + 2)).toNat) * 256 + (get bytes (i + 3)).toNat

end Texture.Bytes
