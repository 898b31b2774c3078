/- Texture/Picture
   digest: Rectangles of premultiplied pixels whose size and byte count always agree. -/

import Texture.Buffer
import Texture.Resolution

set_option autoImplicit false
set_option relaxedAutoImplicit false

namespace Texture

abbrev EdgesInRange (width height : Nat) : Prop :=
  (0 < width ∧ width ≤ maxEdge) ∧ (0 < height ∧ height ≤ maxEdge)

/-- Premultiplied pixels row by row, the top row first. A picture fits its edges by its type. So
nothing that takes one asks whether it does, neither where it becomes part of a document nor where
it is written to a file, and failures that follow only from bytes that do not fit are left out. -/
structure Picture where
  width : Nat
  height : Nat
  bytes : ByteArray
  edges : EdgesInRange width height
  complete : bytes.size = width * height * 4

namespace Picture

instance : BEq Picture where
  beq p q := p.width == q.width && p.height == q.height && p.bytes == q.bytes

def edgesFault (width height : Nat) : Fault :=
  .rasterization s!"raster size {width}x{height} out of range (1..={maxEdge})"

def ofBytes (width height : Nat) (bytes : ByteArray) : Except Fault Picture :=
  if edges : EdgesInRange width height then
    if complete : bytes.size = width * height * 4 then
      .ok ⟨width, height, bytes, edges, complete⟩
    else
      let expected := width * height * 4
      .error (.rasterization
        s!"pixel buffer has {bytes.size} bytes, expected {expected} for {width}x{height}")
  else .error (edgesFault width height)

private theorem size_push (bytes : ByteArray) (p : Pixel) :
    (Buffer.push bytes p).size = bytes.size + 4 := by
  simp [Buffer.push, ByteArray.size_push]

theorem size_build (n : Nat) (f : Nat → Pixel) : (Buffer.build n f).size = n * 4 := by
  unfold Buffer.build
  generalize capacity : ByteArray.emptyWithCapacity (4 * n) = start
  have empty : start.size = 0 := by rw [← capacity]; rfl
  clear capacity
  induction n with
  | zero => simpa using empty
  | succ n ih => rw [Nat.fold_succ, size_push, ih]; omega

def ofPixels (width height : Nat) (edges : EdgesInRange width height)
    (f : Nat → Nat → Pixel) : Picture :=
  ⟨width, height, Buffer.build (width * height) fun i => f (i % width) (i / width), edges,
    size_build _ _⟩

def transparent (width height : Nat) : Except Fault Picture :=
  if edges : EdgesInRange width height then
    .ok (ofPixels width height edges fun _ _ => Pixel.clear)
  else .error (edgesFault width height)

def pixel? (p : Picture) (x y : Nat) : Option Pixel :=
  if x < p.width ∧ y < p.height then some (Buffer.pixelAt p.bytes (y * p.width + x)) else none

def isTransparent (p : Picture) : Bool := Buffer.all (fun q => q.alpha == 0) p.bytes

/-- A one-line description with the number of bytes in place of the bytes. -/
def summary (p : Picture) : String :=
  s!"RasterImage \x7b width: {p.width}, height: {p.height}, bytes: {p.bytes.size} \x7d"

end Picture

end Texture
