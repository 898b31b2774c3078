/- Texture/Zlib/Checksum
   digest: The two check sums of compressed pictures: a remainder of polynomials and a running
   sum of sums. -/

set_option autoImplicit false
set_option relaxedAutoImplicit false

namespace Texture.Zlib.Checksum

def divide : Nat → UInt32 → UInt32
  | 0, r => r
  | n + 1, r => divide n (if r &&& 1 = 1 then (r >>> 1) ^^^ 0xedb88320 else r >>> 1)

def remainders : Array UInt32 := (Array.range 256).map fun b => divide 8 b.toUInt32

def crc (bytes : ByteArray) : UInt32 :=
  (bytes.foldl
    (fun (r : UInt32) b =>
      remainders.getD ((r ^^^ b.toUInt32) &&& 0xff).toNat 0 ^^^ (r >>> 8))
    0xffffffff) ^^^ 0xffffffff

/-- The check sum of uncompressed bytes: the sum of the bytes in the lower half and the sum of all
those sums in the upper half. -/
def adler (bytes : ByteArray) : UInt32 :=
  bytes.foldl
    (fun (s : UInt32) b =>
      let low := ((s &&& 0xffff) + b.toUInt32) % 65521
      let high := ((s >>> 16) + low) % 65521
      (high <<< 16) ||| low)
    1

end Texture.Zlib.Checksum
