/- Texture/Painter
   digest: A plain painter for documents whose content is made of boxes in one colour and of
   bitmaps; everything else is left unpainted. -/

import Texture.Picture.Payload
import Texture.Session
import Texture.Svg.Source
import Texture.Svg.View

set_option autoImplicit false
set_option relaxedAutoImplicit false

namespace Texture.Painter

open Number (Binary)
open Plane (Box)
open Svg (Length View text?)
open Xml (Attribute Element)

structure Layer where
  box : Box
  picture : Picture

def swatch (c : Color) : Picture :=
  Picture.ofPixels 1 1 (by decide) fun _ _ => ⟨c.red, c.green, c.blue, 255⟩

/-- The box of an element. Shares of lengths refer to the given box. -/
def boxOf (basis : Box) (attributes : List Attribute) : Box :=
  let get (key : String) (whole : Float) : Float :=
    (Length.ofAttribute? attributes key).elim 0.0 (Length.within whole)
  let x := get "x" basis.width
  let y := get "y" basis.height
  ⟨x, y, x + get "width" basis.width, y + get "height" basis.height⟩

def hexByte? (a b : Char) : Option UInt8 := do
  return UInt8.ofNat ((← Xml.Part.hexValue? a) * 16 + (← Xml.Part.hexValue? b))

/-- The colour of a paint: two digits to a byte, or one for both. -/
def color? (paint : String) : Option Color :=
  match paint.toList with
  | ['#', a, b, c, d, e, f] => do return ⟨← hexByte? a b, ← hexByte? c d, ← hexByte? e f⟩
  | ['#', a, b, c] => do return ⟨← hexByte? a a, ← hexByte? b b, ← hexByte? c c⟩
  | _ => none

/-- What an element paints apart from its children. -/
def ownLayers (basis : Box) (name : String) (attributes : List Attribute) : List Layer :=
  if name = "rect" then
    match color? ((text? attributes "fill").getD "#000000") with
    | some c => [⟨boxOf basis attributes, swatch c⟩]
    | none => []
  else if name = "image" then
    match Picture.ofPayload ((text? attributes "xlink:href").getD "") with
    | .ok p => [⟨boxOf basis attributes, p⟩]
    | .error _ => []
  else []

mutual

def layers (basis : Box) : Element → List Layer
  | .leaf name attributes => ownLayers basis name attributes
  | .branch name attributes children =>
    if name = "svg" ∨ name = "g" then allLayers basis children
    else ownLayers basis name attributes

def allLayers (basis : Box) : List Element → List Layer
  | [] => []
  | e :: es => layers basis e ++ allLayers basis es

end

def head : Element → String × List Attribute
  | .leaf name attributes => (name, attributes)
  | .branch name attributes _ => (name, attributes)

/-- What a document paints, and the part of the plane that it shows. None if the element is no
document or its size is empty. -/
def scene? (e : Element) : Option (Box × List Layer) := do
  let (name, attributes) := head e
  let view := View.ofAttributes attributes
  let parts := layers (← view.content?) e
  if name = "svg" then return (← view.shown? (parts.map Layer.box), parts) else none

def middle (low extent : Float) (i edge : Nat) : Float :=
  low + (Binary.ofNat false i + 0.5) * extent / Binary.ofNat false edge

/-- For each pixel along an axis, which of so many samples stretched from a start to a stop it
shows; none beyond them. -/
def samples (start stop : Float) (count : Nat) (low extent : Float) (edge : Nat) :
    Array (Option Nat) :=
  (Array.range edge).map fun i =>
    let u := middle low extent i edge
    if start ≤ u ∧ u < stop then
      some (Binary.wholePart ((u - start) / (stop - start) * Binary.ofNat false count))
    else none

/-- A layer seen from the pixels of a view: which of its columns and rows each of them shows. -/
structure Sampling where
  columns : Array (Option Nat)
  rows : Array (Option Nat)
  picture : Picture

def Layer.sampling (view : Box) (width height : Nat) (l : Layer) : Sampling :=
  ⟨samples l.box.left l.box.right l.picture.width view.left view.width width,
    samples l.box.top l.box.bottom l.picture.height view.top view.height height, l.picture⟩

def Sampling.lay (s : Sampling) (x y : Nat) (below : Pixel) : Pixel :=
  match s.columns.getD x none, s.rows.getD y none with
  | some i, some j => Pixel.cover below ((s.picture.pixel? i j).getD Pixel.clear)
  | _, _ => below

/-- Paints an element. Edges must be in the range of pictures and within a limit, and the element
must be a document that shows something. -/
def paint (limit : Nat) (e : Option Element) (width height : Nat) : Except Fault Picture :=
  if edges : EdgesInRange width height then
    if limit < width ∨ limit < height then
      .error (.rasterization
        s!"raster size too large: {width}x{height} (max {limit}x{limit})")
    else
      match e.bind scene? with
      | none => .error (.rasterization "parse svg tree")
      | some (view, parts) =>
        let sampled := parts.map (Layer.sampling view width height)
        .ok (Picture.ofPixels width height edges fun x y =>
          sampled.foldl (fun below s => s.lay x y below) Pixel.clear)
  else .error (Picture.edgesFault width height)

def paintText (limit : Nat) (text : String) (width height : Nat) : Except Fault Picture :=
  paint limit (Svg.Source.ofText? text) width height

def rasterizer : Rasterizer := fun _ request =>
  paint maxEdge (some request.document.toXml) request.width request.height

end Texture.Painter
