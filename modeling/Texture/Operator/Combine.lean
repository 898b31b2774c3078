/- Texture/Operator/Combine
   digest: Two inputs combined: together, one without the other, where both are, or their
   contrast. -/

import Texture.Operator.Settings
import Texture.Operator.Silhouette

set_option autoImplicit false
set_option relaxedAutoImplicit false

namespace Texture.Combination

open Svg (Blend Definitions Effects)

def blended (blend : Blend) (nodes : List Svg.Node) : Svg.Node :=
  .group { Effects.none with blend := blend } nodes

def masked (mask : String) (blend : Blend) (nodes : List Svg.Node) : Svg.Node :=
  .group { Effects.none with mask := some mask, blend := blend } nodes

/-- The two inputs as the children of one group, with the masks they need. -/
def children (c : Combination) (r : Resolution) (definitions : Definitions)
    (first second : List Svg.Node) : Work (List Svg.Node × Definitions) := do
  match c with
  | union =>
    return ([blended .normal first, blended .plusLighter second], definitions)
  | difference =>
    let (definitions, hidden) ← Silhouette.black.mask r definitions second
    return ([masked hidden .normal first], definitions)
  | intersection =>
    let (definitions, inSecond) ← Silhouette.white.mask r definitions second
    let (definitions, inFirst) ← Silhouette.white.mask r definitions first
    return ([masked inSecond .normal first, masked inFirst .multiply second], definitions)
  | exclusion =>
    return ([blended .normal first, blended .exclusion second], definitions)

/-- Combines two inputs; a missing one is empty. -/
def apply (c : Combination) (r : Resolution) (first second : Option Artifact) :
    Work Artifact := do
  let f := (first.getD .empty).toFragment r
  let g := (second.getD .empty).toFragment r
  let (children, definitions) ←
    c.children r (f.definitions.merge g.definitions) f.nodes g.nodes
  return .ofNodes [.group Effects.isolate children] definitions

end Texture.Combination
