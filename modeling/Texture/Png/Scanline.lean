/- Texture/Png/Scanline
   digest: Rows of samples predicted from their neighbours: left, above, and left above. -/

import Texture.Bytes
import Texture.Pixel

set_option autoImplicit false
set_option relaxedAutoImplicit false

namespace Texture.Png

inductive Form where
  | gray
  | color
  | grayAlpha
  | colorAlpha
  deriving DecidableEq, Repr

namespace Form

def ofNumber : Nat → Option Form
  | 0 => some gray
  | 2 => some color
  | 4 => some grayAlpha
  | 6 => some colorAlpha
  | _ => none

def samples : Form → Nat
  | gray => 1
  | color => 3
  | grayAlpha => 2
  | colorAlpha => 4

def pixelAt (form : Form) (bytes : ByteArray) (i : Nat) : Pixel :=
  let s := fun k => Bytes.get bytes (i + k)
  match form with
  | gray => ⟨s 0, s 0, s 0, 255⟩
  | color => ⟨s 0, s 1, s 2, 255⟩
  | grayAlpha => ⟨s 0, s 0, s 0, s 1⟩
  | colorAlpha => ⟨s 0, s 1, s 2, s 3⟩

end Form

namespace Scanline

/-- The neighbour nearest to `left + above - corner`; of equally near ones the first in that
order. -/
def nearestNeighbour (left above corner : Nat) : Nat :=
  let guess : Int := left + above - corner
  let toLeft := (guess - left).natAbs
  let toAbove := (guess - above).natAbs
  let toCorner := (guess - corner).natAbs
  if toLeft ≤ toAbove ∧ toLeft ≤ toCorner then left
  else if toAbove ≤ toCorner then above
  else corner

/-- The prediction of a sample by the rule that the row names. -/
def predict (rule left above corner : Nat) : Nat :=
  match rule with
  | 0 => 0
  | 1 => left
  | 2 => above
  | 3 => (left + above) / 2
  | _ => nearestNeighbour left above corner

/-- Appends a row of samples. Each row in the packed bytes starts with its rule, and each sample is
sent as the difference to its prediction; beyond the edges samples count as zero. -/
def readRow (packed : ByteArray) (row size step : Nat) (out : ByteArray) : Option ByteArray :=
  let start := row * (size + 1)
  let rule := (Bytes.get packed start).toNat
  if 4 < rule then none
  else if rule = 0 then some (out ++ packed.extract (start + 1) (start + 1 + size))
  else
    let base := row * size
    let sample (out : ByteArray) (present : Bool) (i : Nat) : Nat :=
      if present then (Bytes.get out i).toNat else 0
    some (size.fold
      (fun k _ (out : ByteArray) =>
        let left := sample out (decide (step ≤ k)) (base + k - step)
        let above := sample out (decide (0 < row)) (base + k - size)
        let corner := sample out (decide (step ≤ k ∧ 0 < row)) (base + k - size - step)
        let sent := (Bytes.get packed (start + 1 + k)).toNat
        out.push (UInt8.ofNat ((sent + predict rule left above corner) % 256)))
      out)

def read (packed : ByteArray) (rows size step : Nat) : Option ByteArray :=
  if packed.size < rows * (size + 1) then none
  else rows.fold
    (fun row _ (out : Option ByteArray) => out.bind (readRow packed row size step))
    (some ByteArray.empty)

def write (bytes : ByteArray) (rows size : Nat) : ByteArray :=
  rows.fold
    (fun row _ (out : ByteArray) => out.push 0 ++ bytes.extract (row * size) ((row + 1) * size))
    ByteArray.empty

end Scanline

end Texture.Png
