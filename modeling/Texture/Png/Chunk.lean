/- Texture/Png/Chunk
   digest: Picture files as runs of named chunks with check sums. -/

import Texture.Bytes
import Texture.Zlib.Checksum

set_option autoImplicit false
set_option relaxedAutoImplicit false

namespace Texture.Png

def signature : ByteArray := ⟨#[0x89, 0x50, 0x4e, 0x47, 0x0d, 0x0a, 0x1a, 0x0a]⟩

/-- A chunk that was read: its name, and its bytes if the file does not end before their check
sum. -/
structure Chunk where
  name : ByteArray
  body : Option ByteArray
  /-- Whether the check sum is right. -/
  intact : Bool

namespace Chunk

def header : ByteArray := "IHDR".toUTF8

def pixels : ByteArray := "IDAT".toUTF8

def palette : ByteArray := "PLTE".toUTF8

def transparency : ByteArray := "tRNS".toUTF8

def frame : ByteArray := "fcTL".toUTF8

def framePixels : ByteArray := "fdAT".toUTF8

def finish : ByteArray := "IEND".toUTF8

def hasPixels (c : Chunk) : Bool := c.name == pixels || c.name == framePixels

/-- A picture cannot be understood without the chunks whose names start with a capital. -/
def isCritical (c : Chunk) : Bool := (Bytes.get c.name 0).toNat / 32 % 2 == 0

/-- The bytes of a chunk that is whole, and intact if it is critical. -/
def content? (c : Chunk) : Option ByteArray :=
  if c.intact || !c.isCritical then c.body else none

/-- The chunks from a place on; the last one may be cut after its name. -/
def ofFile (file : ByteArray) : Nat → Nat → List Chunk
  | 0, _ => []
  | fuel + 1, pos =>
    if file.size < pos + 8 then []
    else
      let size := Bytes.readBigEndian file pos
      let name := file.extract (pos + 4) (pos + 8)
      let stop := pos + 8 + size
      if file.size < stop + 4 then [⟨name, none, false⟩]
      else
        let sum := (Zlib.Checksum.crc (file.extract (pos + 4) stop)).toNat
        ⟨name, some (file.extract (pos + 8) stop), Bytes.readBigEndian file stop == sum⟩
          :: ofFile file fuel (stop + 4)

def encode (name body : ByteArray) : ByteArray :=
  let named := name ++ body
  Bytes.bigEndian body.size.toUInt32 ++ named ++ Bytes.bigEndian (Zlib.Checksum.crc named)

end Chunk

end Texture.Png
