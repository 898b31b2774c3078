/- Texture/Proofs/Picture/Payload
   digest: A picture is read again from its data address; colours are held at their opacity. -/

import Texture.Proofs.Picture.Grammar
import Texture.Proofs.Pixel
import Texture.Proofs.Png.Image

set_option autoImplicit false
set_option relaxedAutoImplicit false

namespace Texture

namespace Picture

private theorem payloadBytes_toAddress (p : Picture) : payloadBytes p.toAddress = .ok p.toFile := by
  have head : addressHead = "data:" ++ "image/png" ++ ";base64," := by decide
  rw [toAddress, head]
  exact payloadBytes_address (by decide) (means_encode p.toFile)

variable (p : Picture)

theorem ofBytes_self : ofBytes p.width p.height p.bytes = .ok p := by
  rw [ofBytes, dif_pos p.edges, dif_pos p.complete]

/-- A picture with its colours held at their opacity. -/
def capped : Picture :=
  ⟨p.width, p.height, Buffer.map Pixel.capped p.bytes, p.edges, Buffer.size_map _ p.complete⟩

def IsPremultiplied : Prop :=
  ∀ i < p.width * p.height, (Buffer.pixelAt p.bytes i).IsPremultiplied

variable {p} in
theorem capped_of_isPremultiplied (h : p.IsPremultiplied) : p.capped = p := by
  have bytes : Buffer.map Pixel.capped p.bytes = p.bytes := by
    refine Buffer.ext (Buffer.size_map _ p.complete) p.complete fun i less => ?_
    rw [Buffer.pixelAt_map _ p.complete less, Pixel.capped_of_isPremultiplied (h i less)]
  simp only [capped, bytes]

private theorem ofFile_toFile : ofFile p.toFile = .ok p.capped := by
  have complete : p.straight.size = p.width * p.height * 4 := Buffer.size_map _ p.complete
  have bytes : Buffer.map Pixel.premultiply p.straight = Buffer.map Pixel.capped p.bytes := by
    refine Buffer.ext (Buffer.size_map _ complete) (Buffer.size_map _ p.complete) ?_
    intro i less
    rw [Buffer.pixelAt_map _ complete less, Buffer.pixelAt_map _ p.complete less, straight,
      Buffer.pixelAt_map _ p.complete less, Pixel.premultiply_unpremultiply]
  rw [ofFile, toFile, Png.decode_encode p.edges complete]
  simp only [bytes]
  exact ofBytes_self p.capped

/-- A picture is read again from its address, with its colours held at their opacity. -/
theorem ofPayload_toAddress : ofPayload p.toAddress = .ok p.capped := by
  simp only [ofPayload, payloadBytes_toAddress, bind, Except.bind]
  exact ofFile_toFile p

end Picture

end Texture
