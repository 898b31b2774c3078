/- Texture/Png/Image
   digest: Picture files: reading straight pixels from the plain kinds of them, and writing pictures
   to them. -/

import Texture.Bytes
import Texture.Buffer
import Texture.Picture
import Texture.Png.Chunk
import Texture.Png.Preamble
import Texture.Png.Scanline
import Texture.Zlib.Stream

set_option autoImplicit false
set_option relaxedAutoImplicit false

namespace Texture.Png

/-- Straight pixels as they are stored in a file. -/
structure Image where
  width : Nat
  height : Nat
  bytes : ByteArray

/-- Reads a file. Its header comes first, the chunks of pixels follow each other and are intact, and
something comes behind them. Only files of eight-bit samples in plain row order are read, gray or in
colour, with opacity or without. All others are refused here, though other programs show them:
samples of one, two, four or sixteen bits, pixels that are numbers of colours in a palette, rows in
several passes, and every other format of pictures. -/
def decode (file : ByteArray) : Option Image := do
  if file.extract 0 8 != signature then none
  else
    match Chunk.ofFile file file.size 8 with
    | [] => none
    | first :: chunks =>
      let header ←
        if first.name == Chunk.header then first.content?.bind Preamble.ofHeader else none
      let preamble ← (chunks.takeWhile fun c => !c.hasPixels).foldlM Preamble.add header
      let rest := chunks.dropWhile fun c => !c.hasPixels
      let sameKind := fun (c : Chunk) => rest.head?.any fun d => d.name == c.name
      if (rest.dropWhile sameKind).isEmpty then none
      else
        let bodies ← preamble.parts (rest.takeWhile sameKind)
        let packed ← Zlib.unpack (bodies.foldl (· ++ ·) ByteArray.empty)
        let step := preamble.form.samples
        let samples ← Scanline.read packed preamble.height (preamble.width * step) step
        some ⟨preamble.width, preamble.height,
          Buffer.build (preamble.width * preamble.height) fun i =>
            preamble.pixelAt samples (i * step)⟩

/-- The header of a file with four samples to a pixel. -/
def writeHeader (width height : Nat) : ByteArray :=
  Bytes.bigEndian width.toUInt32 ++ Bytes.bigEndian height.toUInt32
    ++ ⟨#[8, 6, 0, 0, 0]⟩

/-- The file of straight pixels. They are stored as they are, so a file is longer than it has to be
and reads the same. -/
def encode (image : Image) : ByteArray :=
  signature ++ Chunk.encode Chunk.header (writeHeader image.width image.height)
    ++ Chunk.encode Chunk.pixels
      (Zlib.store (Scanline.write image.bytes image.height (image.width * 4)))
    ++ Chunk.encode Chunk.finish ByteArray.empty

end Texture.Png
