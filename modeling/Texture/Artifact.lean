/- Texture/Artifact
   digest: What a node yields: a fragment of a document, or pixels. -/

import Texture.Picture.Payload
import Texture.Svg.Document

set_option autoImplicit false
set_option relaxedAutoImplicit false

namespace Texture

open Svg (Definitions Document Rendering)

/-- Nodes with the definitions they refer to. -/
structure Fragment where
  nodes : List Svg.Node
  definitions : Definitions
  deriving Inhabited

namespace Fragment

def empty : Fragment := ⟨[], Definitions.empty⟩

def single (n : Svg.Node) : Fragment := ⟨[n], Definitions.empty⟩

end Fragment

/-- What a node yields. -/
inductive Artifact where
  | vector (f : Fragment)
  /-- Pixels and how they are stretched over the canvas. -/
  | raster (p : Picture) (rendering : Rendering)

namespace Artifact

def empty : Artifact := vector Fragment.empty

instance : Inhabited Artifact := ⟨empty⟩

def single (n : Svg.Node) : Artifact := vector (Fragment.single n)

def ofNodes (nodes : List Svg.Node) (definitions : Definitions) : Artifact :=
  vector ⟨nodes, definitions⟩

def isEmpty : Artifact → Bool
  | vector f => f.nodes.isEmpty
  | raster _ _ => false

/-- A picture stretched over the canvas. -/
def embed (p : Picture) (r : Resolution) (rendering : Rendering) : Svg.Node :=
  .image (Plane.Box.square r.edge) p.toAddress rendering

/-- An artifact as a fragment; pixels become one bitmap over the canvas. -/
def toFragment (r : Resolution) : Artifact → Fragment
  | vector f => f
  | raster p rendering => Fragment.single (embed p r rendering)

def toDocument (r : Resolution) (background : Option Color) (a : Artifact) : Document :=
  let f := a.toFragment r
  ⟨r, f.definitions, background, f.nodes⟩

end Artifact

end Texture
