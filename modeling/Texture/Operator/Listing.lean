/- Texture/Operator/Listing
   digest: Parameters as they are shown to the user: records of named fields. -/

import Texture.Number.Text
import Texture.Operator.Settings
import Texture.Text.Quoted

set_option autoImplicit false
set_option relaxedAutoImplicit false

namespace Texture.Listing

def float (x : Float) : String := Number.floatText Number.FloatStyle.listed x

def record (name : String) (fields : List (String × String)) : String :=
  name ++ " \x7b " ++ ", ".intercalate (fields.map fun (key, text) => key ++ ": " ++ text)
    ++ " \x7d"

def tagged (name content : String) : String := name ++ "(" ++ content ++ ")"

def floats (name : String) (fields : List (String × Float)) : String :=
  tagged name (record (name ++ "Params") (fields.map fun (key, x) => (key, float x)))

def color (c : Color) : String :=
  record "Rgb" [("r", toString c.red), ("g", toString c.green), ("b", toString c.blue)]

def stop (s : GradientStop) : String :=
  record "GradientStop" [("offset", float s.offset.toFloat), ("color", color s.color),
    ("opacity", float s.opacity)]

def gradient (g : Gradient) : String :=
  tagged "Gradient" (record "GradientParams" [
    ("stops", "[" ++ ", ".intercalate (g.stops.map stop) ++ "]"),
    ("direction_x", float g.directionX), ("direction_y", float g.directionY),
    ("power", float g.power)])

def combination : Combination → String
  | .union => "Union"
  | .difference => "Difference"
  | .intersection => "Intersection"
  | .exclusion => "Exclusion"

def halo : Halo → String
  | .glow => "Glow"
  | .neon => "Neon"

def polarMode : PolarMode → String
  | .rectToPolar => "RectToPolar"
  | .polarToRect => "PolarToRect"

def settings : Settings → String
  | .rectangle s => floats "Rectangle" [("width", s.width), ("height", s.height),
      ("radius_tl", s.topLeft), ("radius_tr", s.topRight), ("radius_br", s.bottomRight),
      ("radius_bl", s.bottomLeft)]
  | .circle s => floats "Circle" [("width", s.width), ("height", s.height)]
  | .polygon s => tagged "Polygon" (record "PolygonParams" [("points", toString s.points),
      ("outer_radius", float s.outer), ("inner_radius", float s.inner)])
  | .wavyRing s => floats "WavyRing" [("radius", s.radius), ("frequency", s.frequency),
      ("amplitude", s.amplitude)]
  | .beam s => floats "Beam" [("length", s.length), ("top_width", s.topWidth),
      ("bottom_width", s.bottomWidth)]
  | .gradient g => gradient g
  | .color s => tagged "Color" (record "ColorParams" [("color", color s.color),
      ("opacity", float s.opacity)])
  | .value level => floats "Value" [("value", level)]
  | .alpha opacity => floats "Alpha" [("value", opacity)]
  | .image payload =>
    let text := match payload with
      | some s => tagged "Some" (Text.Quoted.quote s)
      | none => "None"
    tagged "Image" (record "ImageParams" [("payload", text)])
  | .math c => tagged "Math" (combination c)
  | .fill s => tagged "Fill" (record "FillParams" [
      ("fill_enabled", if s.enabled then "true" else "false"),
      ("stroke_width", float s.strokeWidth)])
  | .glow s => tagged "Glow" (record "GlowParams" [("kind", halo s.halo),
      ("radius", float s.radius), ("intensity", float s.intensity)])
  | .softBlur radius => floats "SoftBlur" [("radius", radius)]
  | .stroke s => floats "Stroke" [("width", s.width), ("opacity", s.opacity)]
  | .gradientFade s => floats "GradientFade" [("direction", s.direction), ("start", s.start),
      ("end", s.stop)]
  | .pixelate size =>
    tagged "Pixelate" (record "PixelateParams" [("pixel_size", toString size)])
  | .translate s => floats "Translate" [("x", s.x), ("y", s.y)]
  | .rotate degrees => floats "Rotate" [("angle_deg", degrees)]
  | .scale factor => floats "Scale" [("factor", factor)]
  | .polar s => tagged "Polar" (record "PolarParams" [("mode", polarMode s.mode),
      ("offset_x", float s.offsetX), ("offset_y", float s.offsetY),
      ("radial_scale", float s.radialScale), ("angular_scale", float s.angularScale)])
  | .output => "Output"
  | .unknown => "Unknown"

end Texture.Listing
