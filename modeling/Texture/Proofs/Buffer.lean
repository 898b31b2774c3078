/- Texture/Proofs/Buffer
   digest: A buffer that is built pixel by pixel holds these pixels and no others, row by row in a
   picture, and one pixel of a buffer is changed without the others. -/

import Texture.Picture
import Texture.Proofs.Bytes
import Texture.Proofs.Pixel

set_option autoImplicit false
set_option relaxedAutoImplicit false

namespace Texture

namespace Buffer

private theorem pixelAt_push (bytes : ByteArray) (p : Pixel) {n : Nat} (i : Nat)
    (size : bytes.size = n * 4) :
    pixelAt (push bytes p) i = if i = n then p else pixelAt bytes i := by
  simp only [pixelAt, push, Bytes.get_push, ByteArray.size_push, size]
  by_cases last : i = n
  · rw [if_pos last]
    obtain ⟨red, green, blue, alpha⟩ := p
    congr 1 <;> grind
  · rw [if_neg last]
    congr 1 <;> grind

private theorem build_succ (n : Nat) (f : Nat → Pixel) :
    build (n + 1) f = push (build n f) (f n) := by
  have start : ByteArray.emptyWithCapacity (4 * (n + 1)) = ByteArray.emptyWithCapacity (4 * n) :=
    rfl
  rw [build, build, start, Nat.fold_succ]

theorem pixelAt_build {n : Nat} (f : Nat → Pixel) {i : Nat} (h : i < n) :
    pixelAt (build n f) i = f i := by
  induction n with
  | zero => omega
  | succ n ih =>
    rw [build_succ, pixelAt_push _ _ _ (Picture.size_build n f)]
    by_cases last : i = n
    · rw [if_pos last, last]
    · rw [if_neg last]
      exact ih (by omega)

theorem build_congr {n : Nat} {f g : Nat → Pixel} (h : ∀ i < n, f i = g i) :
    build n f = build n g := by
  induction n with
  | zero => rfl
  | succ n ih => rw [build_succ, build_succ, ih fun i less => h i (by omega), h n (by omega)]

theorem count_build (n : Nat) (f : Nat → Pixel) : count (build n f) = n := by
  rw [count, Picture.size_build]
  omega

variable {n : Nat} {a b bytes : ByteArray}

theorem get_eq_byte (bytes : ByteArray) (j : Nat) :
    Bytes.get bytes j = (pixelAt bytes (j / 4)).byte (j % 4) := by
  have split : j = 4 * (j / 4) + j % 4 := by omega
  have cases : j % 4 = 0 ∨ j % 4 = 1 ∨ j % 4 = 2 ∨ j % 4 = 3 := by omega
  rcases cases with rest | rest | rest | rest <;> rw [rest] at split ⊢ <;> conv_lhs => rw [split]
  all_goals rfl

theorem get_build (f : Nat → Pixel) {j : Nat} (inside : j < n * 4) :
    Bytes.get (build n f) j = (f (j / 4)).byte (j % 4) := by
  rw [get_eq_byte, pixelAt_build _ (by omega)]

theorem ext (size : a.size = n * 4) (size' : b.size = n * 4)
    (h : ∀ i < n, pixelAt a i = pixelAt b i) : a = b := by
  refine Bytes.ext (size.trans size'.symm) fun j inside => ?_
  rw [get_eq_byte, get_eq_byte, h (j / 4) (by omega)]

theorem build_pixelAt (size : bytes.size = n * 4) : build n (pixelAt bytes) = bytes :=
  ext (Picture.size_build n _) size fun _ less => pixelAt_build _ less

def put (bytes : ByteArray) (i : Nat) (p : Pixel) : ByteArray :=
  (((bytes.set! (4 * i) p.red).set! (4 * i + 1) p.green).set! (4 * i + 2) p.blue).set! (4 * i + 3)
    p.alpha

theorem size_put (bytes : ByteArray) (i : Nat) (p : Pixel) : (put bytes i p).size = bytes.size := by
  simp only [put, Bytes.size_set]

theorem pixelAt_put (size : bytes.size = n * 4) {i : Nat} (h : i < n) (p : Pixel) (j : Nat) :
    pixelAt (put bytes i p) j = if j = i then p else pixelAt bytes j := by
  have get : ∀ k, Bytes.get (put bytes i p) k = if k = 4 * i + 3 then p.alpha
      else if k = 4 * i + 2 then p.blue else if k = 4 * i + 1 then p.green
      else if k = 4 * i then p.red else Bytes.get bytes k := fun k => by
    rw [put, Bytes.get_set (by simp only [Bytes.size_set]; omega),
      Bytes.get_set (by simp only [Bytes.size_set]; omega),
      Bytes.get_set (by simp only [Bytes.size_set]; omega), Bytes.get_set (by omega)]
  simp only [pixelAt, get]
  by_cases same : j = i
  · rw [if_pos same, same]
    obtain ⟨red, green, blue, alpha⟩ := p
    congr 1 <;> grind
  · rw [if_neg same]
    congr 1 <;> grind

private theorem map_eq_build (f : Pixel → Pixel) (size : bytes.size = n * 4) :
    map f bytes = build n fun i => f (pixelAt bytes i) := by
  have whole : count bytes = n := by
    rw [count]
    omega
  have rest : bytes.extract (4 * n) bytes.size = ByteArray.empty := by
    rw [← ByteArray.size_eq_zero_iff, ByteArray.size_extract]
    omega
  rw [map, whole, rest, ByteArray.append_empty]

theorem size_map (f : Pixel → Pixel) (size : bytes.size = n * 4) : (map f bytes).size = n * 4 := by
  rw [map_eq_build f size, Picture.size_build]

theorem pixelAt_map (f : Pixel → Pixel) (size : bytes.size = n * 4) {i : Nat} (h : i < n) :
    pixelAt (map f bytes) i = f (pixelAt bytes i) := by
  rw [map_eq_build f size, pixelAt_build _ h]

end Buffer

/-! Places in a picture and their indices. -/

namespace Picture

variable {width height x y : Nat}

private theorem place_mod (inside : x < width) : (y * width + x) % width = x := by
  rw [Nat.mul_comm, Nat.mul_add_mod, Nat.mod_eq_of_lt inside]

private theorem place_div (inside : x < width) : (y * width + x) / width = y := by
  rw [Nat.mul_comm, Nat.mul_add_div (Nat.zero_lt_of_lt inside), Nat.div_eq_of_lt inside,
    Nat.add_zero]

theorem place_lt (hx : x < width) (hy : y < height) : y * width + x < width * height := by
  have rows : (y + 1) * width ≤ height * width := Nat.mul_le_mul_right _ hy
  rw [Nat.succ_mul] at rows
  rw [Nat.mul_comm width]
  omega

theorem pixelAt_ofPixels (edges : EdgesInRange width height) (f : Nat → Nat → Pixel)
    (hx : x < width) (hy : y < height) :
    Buffer.pixelAt (ofPixels width height edges f).bytes (y * width + x) = f x y := by
  rw [ofPixels, Buffer.pixelAt_build _ (place_lt hx hy), place_mod hx, place_div hx]

end Picture

end Texture
