/- Texture/Buffer
   digest: Bytes read as runs of pixels, built and changed pixel by pixel. -/

import Texture.Bytes
import Texture.Fault
import Texture.Pixel

set_option autoImplicit false
set_option relaxedAutoImplicit false

namespace Texture.Buffer

/-- The pixel of an index; bytes beyond the end count as zero. -/
def pixelAt (bytes : ByteArray) (i : Nat) : Pixel :=
  ⟨Bytes.get bytes (4 * i), Bytes.get bytes (4 * i + 1), Bytes.get bytes (4 * i + 2),
    Bytes.get bytes (4 * i + 3)⟩

def push (bytes : ByteArray) (p : Pixel) : ByteArray :=
  (((bytes.push p.red).push p.green).push p.blue).push p.alpha

def build (n : Nat) (f : Nat → Pixel) : ByteArray :=
  n.fold (fun i _ bytes => push bytes (f i)) (ByteArray.emptyWithCapacity (4 * n))

def count (bytes : ByteArray) : Nat := bytes.size / 4

/-- Changes every whole pixel and keeps what is left over at the end. -/
def map (f : Pixel → Pixel) (bytes : ByteArray) : ByteArray :=
  build (count bytes) (fun i => f (pixelAt bytes i))
    ++ bytes.extract (4 * count bytes) bytes.size

def all (p : Pixel → Bool) (bytes : ByteArray) : Bool :=
  Nat.all (count bytes) fun i _ => p (pixelAt bytes i)

/-- Combines two buffers of equally many whole pixels; the name tells which combination failed. -/
def blend (name : String) (f : Pixel → Pixel → Pixel) (below above : ByteArray) :
    Except Fault ByteArray :=
  if below.size = above.size ∧ below.size % 4 = 0 then
    .ok (build (count below) fun i => f (pixelAt below i) (pixelAt above i))
  else .error (.rasterization s!"{name} expects equal-length rgba8 buffers")

def cover (below above : ByteArray) : Except Fault ByteArray :=
  blend "over_in_place" Pixel.cover below above

def add (below above : ByteArray) : Except Fault ByteArray :=
  blend "add_in_place" Pixel.add below above

end Texture.Buffer
