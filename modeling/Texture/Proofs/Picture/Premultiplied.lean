/- Texture/Proofs/Picture/Premultiplied
   digest: Pictures in which no colour exceeds its opacity, as they come from straight pixels and
   from being bent round. -/

import Texture.Operator.Polar
import Texture.Proofs.Picture.Payload

set_option autoImplicit false
set_option relaxedAutoImplicit false

namespace Texture

private theorem Buffer.size_map_eq (f : Pixel → Pixel) (bytes : ByteArray) :
    (map f bytes).size = bytes.size := by
  have whole : 4 * count bytes ≤ bytes.size := by
    unfold count
    omega
  rw [map, ByteArray.size_append, Picture.size_build, ByteArray.size_extract]
  omega

namespace Picture

/-- Both edges are in range, there are four bytes for each pixel, and no colour byte exceeds the
opacity of its pixel. -/
structure Valid (p : Picture) : Prop where
  edges : EdgesInRange p.width p.height
  complete : p.bytes.size = p.width * p.height * 4
  premultiplied : p.IsPremultiplied

variable {p : Picture} {width height : Nat} {bytes : ByteArray}

theorem IsPremultiplied.valid (h : p.IsPremultiplied) : p.Valid := ⟨p.edges, p.complete, h⟩

theorem ofBytes_ok (made : ofBytes width height bytes = .ok p) :
    p.width = width ∧ p.height = height ∧ p.bytes = bytes := by
  unfold ofBytes at made
  split at made
  · split at made
    · rw [← Except.ok.inj made]
      exact ⟨rfl, rfl, rfl⟩
    · simp at made
  · simp at made

theorem ofPixels_valid (edges : EdgesInRange width height) {f : Nat → Nat → Pixel}
    (h : ∀ x y, (f x y).IsPremultiplied) : (ofPixels width height edges f).Valid := by
  refine IsPremultiplied.valid fun i inside => ?_
  have here : Buffer.pixelAt (ofPixels width height edges f).bytes i = f (i % width) (i / width) :=
    Buffer.pixelAt_build _ inside
  rw [here]
  exact h _ _

/-- Straight pixels make a valid picture, whatever they are, if there are as many as its edges
say. -/
theorem ofStraight_valid
    (made : ofBytes width height (Buffer.map Pixel.premultiply bytes) = .ok p) : p.Valid := by
  obtain ⟨rfl, rfl, same⟩ := ofBytes_ok made
  have size : bytes.size = p.width * p.height * 4 := by
    rw [← Buffer.size_map_eq Pixel.premultiply, ← same, p.complete]
  refine IsPremultiplied.valid fun i inside => ?_
  rw [same, Buffer.pixelAt_map _ size inside]
  exact Pixel.isPremultiplied_premultiply _

private theorem ofFile_valid {file : ByteArray} (read : ofFile file = .ok p) : p.Valid := by
  unfold ofFile at read
  split at read
  · simp at read
  · exact ofStraight_valid read

theorem ofPayload_valid {text : String} (read : ofPayload text = .ok p) : p.Valid := by
  rcases bytes : payloadBytes text with e | file
  · simp [ofPayload, bytes, bind, Except.bind] at read
  · have made : ofFile file = .ok p := by simpa [ofPayload, bytes, bind, Except.bind] using read
    exact ofFile_valid made

/-- No index leads to a pixel that is not premultiplied: beyond the end nothing is painted. -/
theorem Valid.pixelAt (valid : p.Valid) (i : Nat) :
    (Buffer.pixelAt p.bytes i).IsPremultiplied := by
  by_cases inside : i < p.width * p.height
  · exact valid.premultiplied i inside
  · have beyond : ∀ k, Bytes.get p.bytes (4 * i + k) = 0 := by
      intro k
      have size := valid.complete
      exact dif_neg (by omega)
    have clear : Buffer.pixelAt p.bytes i = Pixel.clear := by
      rw [Buffer.pixelAt, beyond 1, beyond 2, beyond 3, ← Nat.add_zero (4 * i), beyond 0]
      rfl
    rw [clear]
    exact Pixel.isPremultiplied_clear

end Picture

theorem Polar.remap_valid (s : PolarSettings) {p : Picture} (valid : p.Valid) :
    (remap s p).Valid := by
  refine Picture.ofPixels_valid p.edges fun x y => ?_
  unfold pixelFor
  simp only
  split
  · exact valid.pixelAt _
  · exact Pixel.isPremultiplied_clear

end Texture
