/- Texture/Plane/Path
   digest: Outlines as runs of lines and curves, and their text. -/

import Texture.Number.Text
import Texture.Plane.Affine

set_option autoImplicit false
set_option relaxedAutoImplicit false

namespace Texture.Plane

inductive Step where
  | move (p : Point)
  | line (p : Point)
  /-- A curve with two control points. -/
  | curve (p q r : Point)
  | close
  deriving Inhabited

abbrev Path := List Step

namespace Step

def map (f : Point → Point) : Step → Step
  | move p => move (f p)
  | line p => line (f p)
  | curve p q r => curve (f p) (f q) (f r)
  | close => close

def writePoint (p : Point) : String :=
  Number.floatText Number.FloatStyle.plain p.x ++ ","
    ++ Number.floatText Number.FloatStyle.plain p.y

def write : Step → String
  | move p => "M" ++ writePoint p
  | line p => "L" ++ writePoint p
  | curve p q r => "C" ++ writePoint p ++ " " ++ writePoint q ++ " " ++ writePoint r
  | close => "Z"

end Step

namespace Path

def transform (m : Affine) (path : Path) : Path := path.map (Step.map m.apply)

def ofPoints : List Point → Path
  | [] => []
  | p :: ps => .move p :: ps.map .line

def write (path : Path) : String := " ".intercalate (path.map Step.write)

end Path

end Texture.Plane
