/- Texture/Svg/View
   digest: Lengths with units, and the part of the plane that a document shows. -/

import Texture.Number.Order
import Texture.Number.Reader
import Texture.Plane.Affine
import Texture.Xml.Character
import Texture.Xml.Element

set_option autoImplicit false
set_option relaxedAutoImplicit false

namespace Texture.Svg

open Plane (Box)
open Xml (Attribute)

def text? (attributes : List Attribute) (key : String) : Option String :=
  List.lookup key attributes

/-- A number without words for what is not finite. -/
def plainNumber? (cs : List Char) : Option Float :=
  let (negative, body) := Number.Reader.splitSign cs
  (Number.Reader.decimalPart negative body).filter Number.Binary.isFinite

/-- A length in pixels, or a share of something else. -/
inductive Length where
  | pixels (x : Float)
  | percent (x : Float)

namespace Length

/-- Pixels of a unit. A font is twelve pixels high, and an inch has ninety-six pixels. -/
def units : List (String × Float) :=
  [("px", 1.0), ("in", 96.0), ("cm", 96.0 / 2.54), ("mm", 96.0 / 25.4), ("pt", 96.0 / 72.0),
    ("pc", 16.0), ("em", 12.0), ("ex", 6.0), ("", 1.0)]

def before? (cs : List Char) (ending : String) : Option Float :=
  if ending.toList.isSuffixOf cs then plainNumber? (cs.take (cs.length - ending.length)) else none

def ofText? (text : String) : Option Length :=
  let cs := ((text.toList.dropWhile Xml.isBlank).reverse.dropWhile Xml.isBlank).reverse
  match before? cs "%" with
  | some x => some (percent x)
  | none =>
    units.findSome? fun (ending, scale) => (before? cs ending).map fun x => pixels (x * scale)

/-- The pixels of a length whose share is of the given length. -/
def within (whole : Float) : Length → Float
  | pixels x => x
  | percent x => whole * x / 100.0

def isShare : Length → Bool
  | pixels _ => false
  | percent _ => true

def ofAttribute? (attributes : List Attribute) (key : String) : Option Length :=
  (text? attributes key).bind ofText?

end Length

def isGap (c : Char) : Bool := Xml.isBlank c || c == ','

def viewBox? (text : String) : Option Box :=
  let words := (text.toList.splitBy fun a b => isGap a == isGap b).filter fun w => !w.any isGap
  match words.take 4 with
  | [x, y, w, h] => do
    let width ← plainNumber? w
    let height ← plainNumber? h
    let left ← plainNumber? x
    let top ← plainNumber? y
    if 0.0 < width ∧ 0.0 < height then some ⟨left, top, left + width, top + height⟩ else none
  | _ => none

structure View where
  width : Length
  height : Length
  box : Option Box
  /-- Whether the box is stretched to the size of the document, without regard to its shape. -/
  stretched : Bool

namespace View

/-- The view in the attributes of a root; its size is the whole of what is there unless it says
otherwise. -/
def ofAttributes (attributes : List Attribute) : View :=
  let size (key : String) : Length := (Length.ofAttribute? attributes key).getD (.percent 100.0)
  ⟨size "width", size "height", (text? attributes "viewBox").bind viewBox?,
    text? attributes "preserveAspectRatio" == some "none"⟩

def basis (v : View) : Box := v.box.getD (Box.square 100.0)

def size? (v : View) : Option (Float × Float) :=
  let width := v.width.within v.basis.width
  let height := v.height.within v.basis.height
  if 0.0 < width ∧ 0.0 < height then some (width, height) else none

def content? (v : View) : Option Box :=
  v.size?.map fun (width, height) => v.box.getD ⟨0.0, 0.0, width, height⟩

/-- The least box of the given proportions about the middle of another that holds it. -/
def frame (b : Box) (width height : Float) : Box :=
  let scale := Number.smaller (width / b.width) (height / b.height)
  let left := b.left - (width / scale - b.width) / 2.0
  let top := b.top - (height / scale - b.height) / 2.0
  ⟨left, top, left + width / scale, top + height / scale⟩

/-- The part of the plane that is shown. Without a box it starts at the origin, and if the size is a
share of nothing known it ends where what is painted ends. -/
def shown? (v : View) (painted : List Box) : Option Box :=
  v.size?.map fun (width, height) =>
    match v.box with
    | some b => if v.stretched then b else frame b width height
    | none =>
      let right := painted.foldl (fun x b => Number.larger x b.right) 0.0
      let bottom := painted.foldl (fun y b => Number.larger y b.bottom) 0.0
      if (v.width.isShare || v.height.isShare) && 0.0 < right && 0.0 < bottom then
        ⟨0.0, 0.0, right, bottom⟩
      else ⟨0.0, 0.0, width, height⟩

end View

end Texture.Svg
