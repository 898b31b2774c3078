/- Texture/Png/Preamble
   digest: What the chunks in front of the pixels tell of a picture, and which of them it must not
   have. -/

import Texture.Bytes
import Texture.Color
import Texture.Png.Chunk
import Texture.Png.Scanline

set_option autoImplicit false
set_option relaxedAutoImplicit false

namespace Texture.Png

/-- What is known of a picture in front of its pixels. -/
structure Preamble where
  width : Nat
  height : Nat
  form : Form
  hasPalette : Bool
  /-- The colour that stands for nothing painted. -/
  clear : Option Color
  /-- The number that the next chunk of an animation has to carry. -/
  sequence : Nat

namespace Preamble

/-- Size and form in the first chunk; pixels of eight-bit samples in plain row order only. -/
def ofHeader (body : ByteArray) : Option Preamble := do
  if body.size ≠ 13 then none
  else
    let width := Bytes.readBigEndian body 0
    let height := Bytes.readBigEndian body 4
    let form ← Form.ofNumber (Bytes.get body 9).toNat
    let plain := Bytes.get body 8 == 8 && Bytes.get body 10 == 0 && Bytes.get body 11 == 0
      && Bytes.get body 12 == 0
    if plain && 0 < width && 0 < height then some ⟨width, height, form, false, none, 0⟩ else none

/-- The clear colour of a form whose pixels have no opacity of their own. Its samples are sent in
two bytes, of which the second counts. -/
def clearColor? (form : Form) (body : ByteArray) : Option Color :=
  match form with
  | .gray => if body.size < 2 then none else some (Color.gray (Bytes.get body 1))
  | .color =>
    if body.size < 6 then none
    else some ⟨Bytes.get body 1, Bytes.get body 3, Bytes.get body 5⟩
  | .grayAlpha | .colorAlpha => none

/-- Whether a chunk announces the next frame of an animation, whose first frame fills the whole
picture: number, size, place, duration, and two rules with so many choices. -/
def announces (p : Preamble) (body : ByteArray) : Bool :=
  let numbers := (List.range 5).map fun i => Bytes.readBigEndian body (4 * i)
  body.size == 26 && numbers == [p.sequence, p.width, p.height, 0, 0]
    && Bytes.get body 24 < 3 && Bytes.get body 25 < 2

/-- The next chunk. A palette may come once and is not used. Of the clear colours the first counts,
and where none can be read the chunk is passed by, as are all others that a picture can do
without. -/
def add (p : Preamble) (c : Chunk) : Option Preamble := do
  let body ← c.content?
  if c.name == Chunk.palette then
    if p.hasPalette || body.size < 3 || 768 < body.size then none
    else some { p with hasPalette := true }
  else if c.name == Chunk.transparency then
    if 256 < body.size then some p
    else some { p with clear := p.clear.or (clearColor? p.form body) }
  else if c.name == Chunk.frame then
    if p.announces body then some { p with sequence := p.sequence + 1 } else none
  else if c.isCritical then none
  else some p

/-- The compressed bytes in the chunks of a frame. Each is numbered in front of its bytes, and a
frame must be announced. -/
def frameParts (p : Preamble) (chunks : List Chunk) : Option (List ByteArray) :=
  if p.sequence = 0 then none
  else
    chunks.zipIdx.mapM fun (c, i) => do
      let body ← c.content?
      if body.size < 4 || Bytes.readBigEndian body 0 != p.sequence + i then none
      else some (body.extract 4 body.size)

def parts (p : Preamble) (chunks : List Chunk) : Option (List ByteArray) :=
  if chunks.any (·.name == Chunk.framePixels) then p.frameParts chunks
  else chunks.mapM Chunk.content?

def pixelAt (p : Preamble) (samples : ByteArray) (i : Nat) : Pixel :=
  let pixel := p.form.pixelAt samples i
  if p.clear = some ⟨pixel.red, pixel.green, pixel.blue⟩ then { pixel with alpha := 0 } else pixel

end Preamble

end Texture.Png
