/- Texture/Proofs/Png/Image
   digest: Straight pixels are read again from the file that is written for them. -/

import Mathlib.Algebra.Group.Nat.Defs
import Texture.Proofs.Buffer
import Texture.Proofs.Zlib.Stored
import Texture.Png.Image

set_option autoImplicit false
set_option relaxedAutoImplicit false

namespace Texture.Png

open Bytes (LiesIn get)

namespace Scanline

variable {bytes packed : ByteArray} {rows size step row : Nat}

/-- A row as it is sent: the rule of no prediction, and the samples. -/
def plainRow (bytes : ByteArray) (size row : Nat) : ByteArray :=
  ⟨#[0]⟩ ++ bytes.extract (row * size) ((row + 1) * size)

private theorem write_eq (bytes : ByteArray) (rows size : Nat) :
    write bytes rows size = Bytes.joined ByteArray.empty (plainRow bytes size) rows := by
  simp only [write, Bytes.joined, plainRow, Bytes.push_eq_append, ByteArray.append_assoc]

private theorem size_extract_row (complete : bytes.size = rows * size) (less : row < rows) :
    (bytes.extract (row * size) ((row + 1) * size)).size = size := by
  have inside : (row + 1) * size ≤ rows * size := Nat.mul_le_mul_right size less
  rw [ByteArray.size_extract, complete, Nat.min_eq_left inside, Nat.succ_mul,
    Nat.add_sub_cancel_left]

private theorem size_plainRow (complete : bytes.size = rows * size) (less : row < rows) :
    (plainRow bytes size row).size = size + 1 := by
  rw [plainRow, ByteArray.size_append, size_extract_row complete less, Nat.add_comm]
  rfl

private theorem readRow_plain (complete : bytes.size = rows * size) (less : row < rows)
    (out : ByteArray) (lies : LiesIn (plainRow bytes size row) packed (row * (size + 1))) :
    readRow packed row size step out =
      some (out ++ bytes.extract (row * size) ((row + 1) * size)) := by
  have rule : get packed (row * (size + 1)) = 0 := lies.left.get (i := 0) (by decide)
  have body := lies.right.extract
  rw [size_extract_row complete less] at body
  rw [readRow]
  simp only [rule]
  exact congrArg (fun part => some (out ++ part)) body

private theorem size_write (complete : bytes.size = rows * size) :
    (write bytes rows size).size = rows * (size + 1) := by
  rw [write_eq, Bytes.size_joined fun _ less => size_plainRow complete less]
  exact Nat.zero_add _

private theorem read_write (complete : bytes.size = rows * size) :
    read (write bytes rows size) rows size step = some bytes := by
  have sizes : ∀ row < rows, (plainRow bytes size row).size = size + 1 := fun _ less =>
    size_plainRow complete less
  have room := size_write complete
  have lies : ∀ row < rows,
      LiesIn (plainRow bytes size row) (write bytes rows size) (row * (size + 1)) := by
    intro row less
    have place := Bytes.joined_liesIn ByteArray.empty sizes less
    rw [← write_eq, ByteArray.size_empty, Nat.zero_add] at place
    exact place
  -- So many rows give the samples of these rows.
  have front : ∀ n ≤ rows,
      n.fold (fun row _ (out : Option ByteArray) =>
          out.bind (readRow (write bytes rows size) row size step)) (some ByteArray.empty) =
        some (bytes.extract 0 (n * size)) := by
    intro n le
    induction n with
    | zero =>
      rw [Nat.zero_mul]
      simp
    | succ n ih =>
      have order : n * size ≤ (n + 1) * size := Nat.mul_le_mul_right size (by omega)
      rw [Nat.fold_succ, ih (by omega), Option.bind_some,
        readRow_plain complete (by omega) _ (lies n (by omega)), ByteArray.extract_append_extract,
        Nat.zero_min, Nat.max_eq_right order]
  rw [read, if_neg (by omega), front rows (Nat.le_refl rows), ← complete,
    ByteArray.extract_zero_size]

end Scanline

namespace Chunk

variable {name body file : ByteArray} {pos fuel : Nat}

private theorem size_names : header.size = 4 ∧ pixels.size = 4 ∧ finish.size = 4 := by decide

private theorem size_encode (named : name.size = 4) : (encode name body).size = body.size + 12 := by
  simp only [encode, ByteArray.size_append, Bytes.size_bigEndian, named]
  omega

private theorem ofFile_encode (named : name.size = 4) (small : body.size < 2 ^ 32)
    (lies : LiesIn (encode name body) file pos) :
    ofFile file (fuel + 1) pos =
      ⟨name, some body, true⟩ :: ofFile file fuel (pos + (body.size + 12)) := by
  have room := lies.le
  rw [size_encode named] at room
  have size : Bytes.readBigEndian file pos = body.size := by
    rw [lies.left.left.readBigEndian, Nat.toUInt32, UInt32.toNat_ofNat', Nat.mod_eq_of_lt small]
  have content : LiesIn (name ++ body) file (pos + 4) := lies.left.right
  have sum : LiesIn (Bytes.bigEndian (Zlib.Checksum.crc (name ++ body))) file
      (pos + 8 + body.size) := by
    have place := lies.right
    rw [ByteArray.size_append, ByteArray.size_append, Bytes.size_bigEndian, named] at place
    rwa [show pos + 8 + body.size = pos + (4 + (4 + body.size)) by omega]
  have first : file.extract (pos + 4) (pos + 8) = name := by
    have part := content.left.extract
    rwa [named] at part
  have rest : file.extract (pos + 8) (pos + 8 + body.size) = body := by
    have part := content.right.extract
    rwa [named] at part
  have both : file.extract (pos + 4) (pos + 8 + body.size) = name ++ body := by
    have part := content.extract
    rw [ByteArray.size_append, named] at part
    rwa [show pos + 8 + body.size = pos + 4 + (4 + body.size) by omega]
  rw [ofFile, if_neg (by omega)]
  simp only [size, first]
  rw [if_neg (by omega), rest, both, sum.readBigEndian, beq_self_eq_true,
    show pos + 8 + body.size + 4 = pos + (body.size + 12) by omega]

private theorem ofFile_end (file : ByteArray) (fuel : Nat) : ofFile file fuel file.size = [] := by
  cases fuel with
  | zero => rfl
  | succ fuel => rw [ofFile, if_pos (by omega)]

end Chunk

private theorem size_writeHeader (width height : Nat) : (writeHeader width height).size = 13 := rfl

private theorem Preamble.ofHeader_writeHeader {width height : Nat} (wide : 0 < width)
    (width_lt : width < 2 ^ 32) (high : 0 < height) (height_lt : height < 2 ^ 32) :
    ofHeader (writeHeader width height) = some ⟨width, height, .colorAlpha, false, none, 0⟩ := by
  have whole : LiesIn (Bytes.bigEndian width.toUInt32 ++ Bytes.bigEndian height.toUInt32
      ++ ⟨#[8, 6, 0, 0, 0]⟩) (writeHeader width height) 0 := LiesIn.refl _
  have width' : Bytes.readBigEndian (writeHeader width height) 0 = width := by
    rw [whole.left.left.readBigEndian, Nat.toUInt32, UInt32.toNat_ofNat', Nat.mod_eq_of_lt width_lt]
  have height' : Bytes.readBigEndian (writeHeader width height) 4 = height := by
    have second : LiesIn (Bytes.bigEndian height.toUInt32) (writeHeader width height) 4 :=
      whole.left.right
    rw [second.readBigEndian, Nat.toUInt32, UInt32.toNat_ofNat', Nat.mod_eq_of_lt height_lt]
  have depth : get (writeHeader width height) 8 = 8 := rfl
  have form : get (writeHeader width height) 9 = 6 := rfl
  have zero : get (writeHeader width height) 10 = 0 ∧ get (writeHeader width height) 11 = 0 ∧
    get (writeHeader width height) 12 = 0 := ⟨rfl, rfl, rfl⟩
  have number : Form.ofNumber (6 : UInt8).toNat = some .colorAlpha := rfl
  rw [ofHeader, if_neg (by rw [size_writeHeader]; decide)]
  simp only [width', height', depth, form, zero, number, Option.bind_eq_bind, Option.bind_some]
  rw [if_pos (by simp [wide, high])]

section

variable {image : Image}

def packedRows (image : Image) : ByteArray :=
  Zlib.store (Scanline.write image.bytes image.height (image.width * 4))

def chunksOf (image : Image) : List Chunk :=
  [⟨Chunk.header, some (writeHeader image.width image.height), true⟩,
    ⟨Chunk.pixels, some (packedRows image), true⟩, ⟨Chunk.finish, some ByteArray.empty, true⟩]

private theorem encode_signature (image : Image) : (encode image).extract 0 8 = signature := by
  have lies : LiesIn signature (encode image) 0 :=
    (((LiesIn.refl signature).mono _).mono _).mono _
  exact lies.extract

private theorem ofFile_encode (small : (packedRows image).size < 2 ^ 32) :
    Chunk.ofFile (encode image) (encode image).size 8 = chunksOf image := by
  obtain ⟨header, pixels, finish⟩ := Chunk.size_names
  have whole : LiesIn (signature ++ Chunk.encode Chunk.header (writeHeader image.width image.height)
      ++ Chunk.encode Chunk.pixels (packedRows image) ++ Chunk.encode Chunk.finish ByteArray.empty)
      (encode image) 0 := LiesIn.refl _
  have front : (signature
      ++ Chunk.encode Chunk.header (writeHeader image.width image.height)).size = 33 := by
    rw [ByteArray.size_append, Chunk.size_encode header, size_writeHeader]
    rfl
  have first : LiesIn (Chunk.encode Chunk.header (writeHeader image.width image.height))
      (encode image) 8 := whole.left.left.right
  have second : LiesIn (Chunk.encode Chunk.pixels (packedRows image)) (encode image) 33 := by
    have place := whole.left.right
    rwa [front, Nat.zero_add] at place
  have third : LiesIn (Chunk.encode Chunk.finish ByteArray.empty) (encode image)
      (33 + ((packedRows image).size + 12)) := by
    have place := whole.right
    rwa [ByteArray.size_append, front, Chunk.size_encode pixels, Nat.zero_add] at place
  have size : (encode image).size = 33 + ((packedRows image).size + 12) + 12 := by
    have same : encode image = signature
        ++ Chunk.encode Chunk.header (writeHeader image.width image.height)
        ++ Chunk.encode Chunk.pixels (packedRows image)
        ++ Chunk.encode Chunk.finish ByteArray.empty := rfl
    rw [same, ByteArray.size_append, ByteArray.size_append, front, Chunk.size_encode pixels,
      Chunk.size_encode finish, ByteArray.size_empty]
  obtain ⟨fuel, enough⟩ : ∃ fuel, (encode image).size = fuel + 3 := ⟨_, by rw [size]⟩
  have headerSmall : (writeHeader image.width image.height).size < 2 ^ 32 := by
    rw [size_writeHeader]
    decide
  have finishSmall : ByteArray.empty.size < 2 ^ 32 := by decide
  have stop : 33 + ((packedRows image).size + 12) + (ByteArray.empty.size + 12) =
      (encode image).size := by
    rw [size]
    rfl
  rw [enough, Chunk.ofFile_encode header headerSmall first, size_writeHeader,
    Chunk.ofFile_encode pixels small second, Chunk.ofFile_encode finish finishSmall third, stop,
    Chunk.ofFile_end]
  rfl

private theorem size_packedRows_lt (edges : EdgesInRange image.width image.height)
    (complete : image.bytes.size = image.height * (image.width * 4)) :
    (packedRows image).size < 2 ^ 32 := by
  obtain ⟨⟨-, width⟩, ⟨-, height⟩⟩ := edges
  have stored := Zlib.size_store_le (Scanline.write image.bytes image.height (image.width * 4))
  rw [Scanline.size_write complete] at stored
  have rows : image.height * (image.width * 4 + 1) ≤ 16384 * 65537 :=
    Nat.mul_le_mul height (by rw [maxEdge] at width; omega)
  rw [packedRows]
  omega

/-- A picture is read again from its file. -/
theorem decode_encode (edges : EdgesInRange image.width image.height)
    (complete : image.bytes.size = image.width * image.height * 4) :
    decode (encode image) = some image := by
  obtain ⟨⟨wide, width⟩, ⟨high, height⟩⟩ := id edges
  have small : maxEdge < 2 ^ 32 := by decide
  have header := Preamble.ofHeader_writeHeader wide (Nat.lt_of_le_of_lt width small) high
    (Nat.lt_of_le_of_lt height small)
  have rows : image.bytes.size = image.height * (image.width * 4) := by
    rw [complete, Nat.mul_comm image.width, Nat.mul_assoc]
  have samples : Scanline.read (Scanline.write image.bytes image.height (image.width * 4))
      image.height (image.width * 4) 4 = some image.bytes := Scanline.read_write rows
  have known : (signature != signature) = false ∧ (Chunk.header == Chunk.header) = true := by decide
  have content : Chunk.content? ⟨Chunk.header, some (writeHeader image.width image.height), true⟩ =
    some (writeHeader image.width image.height) := rfl
  -- The chunk of pixels is the only one of its kind, and one comes behind it.
  obtain ⟨body, isBody⟩ : ∃ c, c = Chunk.mk Chunk.pixels (some (packedRows image)) true := ⟨_, rfl⟩
  obtain ⟨last, isLast⟩ : ∃ c, c = Chunk.mk Chunk.finish (some ByteArray.empty) true := ⟨_, rfl⟩
  have hasPixels : body.hasPixels = true := by rw [isBody]; rfl
  have sameBody : (body.name == body.name) = true := by rw [isBody]; rfl
  have sameLast : (body.name == last.name) = false := by rw [isBody, isLast]; rfl
  have parts (p : Preamble) : p.parts [body] = some [packedRows image] := by rw [isBody]; rfl
  rw [decode, encode_signature, known.1, if_neg Bool.false_ne_true,
    ofFile_encode (size_packedRows_lt edges rows), chunksOf, ← isBody, ← isLast]
  simp only [content, known, header, hasPixels, sameBody, sameLast, List.takeWhile_cons,
    List.dropWhile_cons, List.foldlM_nil, List.head?_cons, Option.any_some, Option.bind_eq_bind,
    Option.pure_def, Option.bind_some, Bool.not_true, Bool.false_eq_true, if_true, if_false,
    List.isEmpty_cons, parts, List.foldl_cons, List.foldl_nil, ByteArray.empty_append]
  rw [packedRows, Zlib.unpack_store, Option.bind_some, Form.samples, samples, Option.bind_some]
  have pixel (i : Nat) : Preamble.pixelAt ⟨image.width, image.height, .colorAlpha, false, none, 0⟩
      image.bytes (i * 4) = Buffer.pixelAt image.bytes i := by
    rw [Nat.mul_comm]
    rfl
  simp only [pixel, Buffer.build_pixelAt complete]

end

end Texture.Png
