/- Texture/Zlib/Stream
   digest: Compressed streams with their header and check sum: reading any, writing stored ones. -/

import Texture.Bytes
import Texture.Zlib.Checksum
import Texture.Zlib.Inflate

set_option autoImplicit false
set_option relaxedAutoImplicit false

namespace Texture.Zlib

def blockLimit : Nat := 65535

def blockHeader (last : Bool) (size : Nat) : ByteArray :=
  let rest := blockLimit - size
  ⟨#[if last then 1 else 0, UInt8.ofNat (size % 256), UInt8.ofNat (size / 256),
    UInt8.ofNat (rest % 256), UInt8.ofNat (rest / 256)]⟩

/-- A stream that stores its bytes as they are. -/
def store (bytes : ByteArray) : ByteArray :=
  let whole := (bytes.size - 1) / blockLimit
  let body := whole.fold
    (fun i _ (out : ByteArray) =>
      out ++ blockHeader false blockLimit
        ++ bytes.extract (i * blockLimit) ((i + 1) * blockLimit))
    ⟨#[0x78, 0x01]⟩
  body ++ blockHeader true (bytes.size - whole * blockLimit)
    ++ bytes.extract (whole * blockLimit) bytes.size
    ++ Bytes.bigEndian (Checksum.adler bytes)

/-- The bytes of a stream. Its header must name the compression and be a multiple of 31, and the
check sum of the bytes must follow. -/
def unpack (stream : ByteArray) : Option ByteArray := do
  if stream.size < 2 then none
  else
    let method := (Bytes.get stream 0).toNat
    let flags := (Bytes.get stream 1).toNat
    if method % 16 ≠ 8 ∨ 7 < method / 16 ∨ flags / 32 % 2 = 1 ∨ (method * 256 + flags) % 31 ≠ 0
    then none
    else
      let (behind, bytes) ← Inflate.inflate stream 2
      if behind + 4 ≤ stream.size
          ∧ Bytes.readBigEndian stream behind = (Checksum.adler bytes).toNat then
        some bytes
      else none

end Texture.Zlib
