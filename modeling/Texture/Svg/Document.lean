/- Texture/Svg/Document
   digest: Whole documents and their element trees: definitions, background, content. -/

import Texture.Svg.Definitions
import Texture.Xml.Element

set_option autoImplicit false
set_option relaxedAutoImplicit false

namespace Texture.Svg

open Plane (Affine Box Point)
open Xml (Attribute Element)

/-- A number with at most four decimal places. What is not a number or infinite counts as zero, and
no zero has a sign. -/
def number (x : Float) : String :=
  if Number.Binary.isFinite x then
    let rounded := Number.Binary.roundHalfAway (x * 1e4) / 1e4
    if rounded == 0.0 then "0" else Number.floatText Number.FloatStyle.plain rounded
  else "0"

def numbers (xs : List Float) : String := " ".intercalate (xs.map number)

def matrixText (m : Affine) : String := "matrix(" ++ numbers m.toList ++ ")"

def referenceText (id : String) : String := "url(#" ++ id ++ ")"

def optional (name : String) (text : Option String) : List Attribute :=
  match text with
  | some text => [(name, text)]
  | none => []

def Paint.text : Paint → String
  | none => "none"
  | color c => c.hex
  | reference id => referenceText id

def Style.attributes (s : Style) : List Attribute :=
  [("fill", s.fill.text)] ++ optional "fill-opacity" (s.fillOpacity.map number)
    ++ [("stroke", s.stroke.text)] ++ optional "stroke-width" (s.strokeWidth.map number)
    ++ optional "stroke-opacity" (s.strokeOpacity.map number)

def boxAttributes (b : Box) : List Attribute :=
  [("x", number b.left), ("y", number b.top), ("width", number b.width),
    ("height", number b.height)]

def pointText (p : Point) : String := number p.x ++ "," ++ number p.y

namespace Geometry

def tag : Geometry → String
  | path _ => "path"
  | box _ => "rect"
  | circle _ _ => "circle"
  | ellipse _ _ => "ellipse"
  | polygon _ => "polygon"

def attributes : Geometry → List Attribute
  | path p => [("d", p.write)]
  | box b => boxAttributes b
  | circle centre radius =>
    [("cx", number centre.x), ("cy", number centre.y), ("r", number radius)]
  | ellipse centre radii =>
    [("cx", number centre.x), ("cy", number centre.y), ("rx", number radii.x),
      ("ry", number radii.y)]
  | polygon points => [("points", " ".intercalate (points.map pointText))]

end Geometry

def Blend.name : Blend → String
  | normal => "normal"
  | multiply => "multiply"
  | plusLighter => "plus-lighter"
  | exclusion => "exclusion"

/-- The style sheet of a group: its blend unless normal, and its isolation. -/
def Effects.sheet (e : Effects) : Option String :=
  let blend := if e.blend = .normal then [] else ["mix-blend-mode:" ++ e.blend.name]
  let isolation := if e.isolated then ["isolation:isolate"] else []
  match blend ++ isolation with
  | [] => Option.none
  | rules => some (";".intercalate rules)

def Effects.attributes (e : Effects) : List Attribute :=
  optional "transform" (e.transform.map matrixText) ++ optional "opacity" (e.opacity.map number)
    ++ optional "filter" (e.filter.map referenceText)
    ++ optional "mask" (e.mask.map referenceText) ++ optional "style" e.sheet

def imageAttributes (box : Box) (address : String) (rendering : Rendering) : List Attribute :=
  boxAttributes box ++ [("preserveAspectRatio", "none")]
    ++ (if rendering = .pixelated then [("image-rendering", "optimizeSpeed")] else [])
    ++ [("xlink:href", address)]

namespace Node

mutual

def toXml : Node → Element
  | shape geometry style => .leaf geometry.tag (geometry.attributes ++ style.attributes)
  | group effects children => .branch "g" effects.attributes (toXmlAll children)
  | image box address rendering => .leaf "image" (imageAttributes box address rendering)

def toXmlAll : List Node → List Element
  | [] => []
  | n :: ns => toXml n :: toXmlAll ns

end

def write (nodes : List Node) : String := Element.writeAll (toXmlAll nodes)

end Node

def Units.name : Units → String
  | boundingBox => "objectBoundingBox"
  | userSpace => "userSpaceOnUse"

/-- The attributes of a region, whose units are named after the kind of definition. -/
def Region.attributes (r : Region) (kind : String) : List Attribute :=
  (kind ++ "Units", r.units.name) :: boxAttributes r.box

def Stop.toXml (s : Stop) : Element :=
  .leaf "stop" [("offset", number s.offset), ("stop-color", s.color.hex),
    ("stop-opacity", number s.opacity)]

def LinearGradient.toXml (g : LinearGradient) : Element :=
  .branch "linearGradient"
    ([("id", g.id), ("gradientUnits", g.units.name), ("x1", number g.x1), ("y1", number g.y1),
      ("x2", number g.x2), ("y2", number g.y2)]
      ++ optional "gradientTransform" (g.transform.map matrixText))
    (g.stops.map Stop.toXml)

def Primitive.toXml : Primitive → Element
  | blur input deviation result =>
    .leaf "feGaussianBlur"
      [("in", input), ("stdDeviation", number deviation), ("result", result)]
  | matrix input values result =>
    .leaf "feColorMatrix"
      [("in", input), ("type", "matrix"), ("values", numbers values), ("result", result)]
  | merge inputs result =>
    .branch "feMerge" [("result", result)]
      (inputs.map fun input => .leaf "feMergeNode" [("in", input)])

def Def.toXml : Def → Element
  | gradient g => g.toXml
  | filter id region primitives =>
    .branch "filter"
      ([("id", id)] ++ region.attributes "filter" ++ [("color-interpolation-filters", "sRGB")])
      (primitives.map Primitive.toXml)
  | mask id region content =>
    .branch "mask" ([("id", id)] ++ region.attributes "mask") (Node.toXmlAll content)

structure Document where
  resolution : Resolution
  definitions : Definitions
  /-- The colour of the whole canvas below the content. -/
  background : Option Color
  content : List Node

namespace Document

def backgroundXml (edge : String) (c : Color) : Element :=
  .leaf "rect" [("x", "0"), ("y", "0"), ("width", edge), ("height", edge), ("fill", c.hex)]

def toXml (doc : Document) : Element :=
  let edge := number doc.resolution.edge
  .branch "svg"
    [("xmlns", "http://www.w3.org/2000/svg"), ("xmlns:xlink", "http://www.w3.org/1999/xlink"),
      ("viewBox", "0 0 " ++ edge ++ " " ++ edge), ("width", edge), ("height", edge)]
    ([.branch "defs" [] (doc.definitions.items.map Def.toXml)]
      ++ (doc.background.map (backgroundXml edge)).toList
      ++ [.branch "g" [] (Node.toXmlAll doc.content)])

def write (doc : Document) : String := doc.toXml.write

end Document

end Texture.Svg
