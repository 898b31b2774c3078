/- Texture/Picture/Payload
   digest: Pictures as texts: data addresses, bare payloads, and the files inside them. -/

import Texture.Png.Image
import Texture.Text.Base64
import Texture.Text.Blank

set_option autoImplicit false
set_option relaxedAutoImplicit false

namespace Texture.Picture

def straight (p : Picture) : ByteArray := Buffer.map Pixel.unpremultiply p.bytes

def toFile (p : Picture) : ByteArray := Png.encode ⟨p.width, p.height, p.straight⟩

def addressHead : String := "data:image/png;base64,"

def toAddress (p : Picture) : String := addressHead ++ Text.Base64.encode p.toFile

/-- The picture in a picture file of a kind that `Png.decode` reads. A file of any other kind counts
as no picture. -/
def ofFile (file : ByteArray) : Except Fault Picture :=
  match Png.decode file with
  | none => .error (.rasterization "decode image from memory")
  | some image => ofBytes image.width image.height (Buffer.map Pixel.premultiply image.bytes)

def endsIn (ending text : List Char) : Bool := ending.reverse.isPrefixOf text.reverse

/-- The symbols of a payload without their address, if they have one. -/
def payloadSymbols (text : List Char) : Except Fault (List Char) :=
  let text := Text.trim text
  if "data:".toList.isPrefixOf text then
    let rest := text.drop 5
    match rest.dropWhile (· != ',') with
    | [] => .error (.rasterization "data url has no payload")
    | _ :: symbols =>
      if endsIn ";base64".toList (rest.takeWhile (· != ',')) then .ok symbols
      else .error (.rasterization "only base64-encoded data urls are supported")
  else .ok text

/-- The bytes of a payload: an address with the mark of sixty-four symbols, or the symbols alone,
with blanks anywhere among them. -/
def payloadBytes (text : String) : Except Fault ByteArray := do
  let symbols ← payloadSymbols text.toList
  match Text.Base64.decode (String.ofList (symbols.filter fun c => !Text.isPlainBlank c)) with
  | some bytes => return bytes
  | none => .error (.rasterization "invalid base64 payload")

def ofPayload (text : String) : Except Fault Picture := do
  ofFile (← payloadBytes text)

end Texture.Picture
