/- Texture/Operator/Silhouette
   digest: Masks that show or hide what lies inside the footprint of some nodes, whatever their
   colours. -/

import Texture.Artifact
import Texture.Session

set_option autoImplicit false
set_option relaxedAutoImplicit false

namespace Texture

open Svg (Definitions Effects Region Style)

/-- The colour a footprint is painted in. -/
inductive Silhouette where
  | white
  | black
  deriving DecidableEq, Repr

namespace Silhouette

/-- The id of the filter that paints footprints; a document has at most one of each. -/
def filterId : Silhouette → String
  | white => "silhouette_white"
  | black => "silhouette_black"

/-- Sets all colours to one level and keeps the opacity. -/
def matrix (s : Silhouette) : List Float :=
  let level := match s with
    | white => 1.0
    | black => 0.0
  [0.0, 0.0, 0.0, 0.0, level,
    0.0, 0.0, 0.0, 0.0, level,
    0.0, 0.0, 0.0, 0.0, level,
    0.0, 0.0, 0.0, 1.0, 0.0]

def filter (s : Silhouette) (r : Resolution) : Svg.Def :=
  .filter s.filterId (Region.roomy r) [.matrix "SourceGraphic" s.matrix "silhouette"]

/-- What a mask paints: the footprint, for a black one on a white ground. -/
def content (s : Silhouette) (r : Resolution) (nodes : List Svg.Node) : List Svg.Node :=
  let ground := match s with
    | white => []
    | black => [Svg.Node.shape (.box (Region.roomy r).box) Style.white]
  ground ++ [.group { Effects.none with filter := some s.filterId } nodes]

/-- Adds a mask to some definitions: a white footprint shows only what lies in it, a black one hides
it. Yields the id of the mask. -/
def mask (s : Silhouette) (r : Resolution) (definitions : Definitions) (nodes : List Svg.Node) :
    Work (Definitions × String) := do
  let id ← Work.freshId "mask"
  return ((definitions.insert (s.filter r)).insert
    (.mask id (Region.roomy r) (s.content r nodes)), id)

end Silhouette

end Texture
