/- Texture/Bake
   digest: Pixels of documents and artifacts. Groups whose children add up are painted child by
   child and summed before the document is painted. -/

import Texture.Artifact
import Texture.Session

set_option autoImplicit false
set_option relaxedAutoImplicit false

namespace Texture

open Svg (Blend Def Definitions Document Effects Rendering)

namespace Svg.Node

/-- The blend of a node; only groups have one of their own. -/
def blend : Node → Blend
  | group effects _ => effects.blend
  | _ => .normal

/-- Whether a group is isolated and its children are painted or added, at least one of them
added. -/
def isAdditive (effects : Effects) (children : List Node) : Bool :=
  effects.isolated && children.any (fun n => n.blend == .plusLighter)
    && children.all (fun n => n.blend == .normal || n.blend == .plusLighter)

end Svg.Node

namespace Bake

/-- What the layers of additive groups are painted with. -/
structure Layers where
  canvas : Canvas
  definitions : Definitions
  width : Nat
  height : Nat

namespace Layers

def paint (layers : Layers) (n : Svg.Node) : Work Picture :=
  Work.rasterize layers.canvas.rasterizer
    ⟨⟨layers.canvas.resolution, layers.definitions, none, [n]⟩, layers.width, layers.height⟩

def ground (layers : Layers) : ByteArray :=
  Buffer.build (layers.width * layers.height) fun _ => Pixel.clear

def lay (layers : Layers) (below : Option ByteArray) (n : Svg.Node) :
    Work (Option ByteArray) := do
  let layer ← layers.paint n
  let below := below.getD layers.ground
  some <$> Work.ofExcept
    (if n.blend = .plusLighter then Buffer.add below layer.bytes
    else Buffer.cover below layer.bytes)

def sum (layers : Layers) (children : List Svg.Node) : Work Picture := do
  let bytes ← children.foldlM layers.lay none
  Work.ofExcept (Picture.ofBytes layers.width layers.height (bytes.getD layers.ground))

mutual

/-- Replaces the children of every additive group by their sum, the innermost groups first. -/
def flatten (layers : Layers) : Svg.Node → Work Svg.Node
  | .shape geometry style => return .shape geometry style
  | .image box address rendering => return .image box address rendering
  | .group effects children => do
    let children ← flattenAll layers children
    if Svg.Node.isAdditive effects children then
      let picture ← layers.sum children
      return .group effects [Artifact.embed picture layers.canvas.resolution .smooth]
    else
      return .group effects children

def flattenAll (layers : Layers) : List Svg.Node → Work (List Svg.Node)
  | [] => return []
  | n :: ns => do
    let n ← flatten layers n
    return n :: (← flattenAll layers ns)

end

end Layers

/-- Flattens the masks in their order. A mask refers to definitions before it only, which are
flattened already. -/
def flattenMasks (canvas : Canvas) (width height : Nat) :
    List Def → List Def → Work (List Def)
  | done, [] => return done
  | done, d :: rest => do
    let d ← match d with
      | .mask id region content => do
        let layers : Layers := ⟨canvas, ⟨done ++ d :: rest⟩, width, height⟩
        pure (Def.mask id region (← layers.flattenAll content))
      | d => pure d
    flattenMasks canvas width height (done ++ [d]) rest

def flatten (rasterizer : Rasterizer) (width height : Nat) (doc : Document) : Work Document := do
  let canvas : Canvas := ⟨doc.resolution, rasterizer⟩
  let definitions ← flattenMasks canvas width height [] doc.definitions.items
  let layers : Layers := ⟨canvas, ⟨definitions⟩, width, height⟩
  let content ← layers.flattenAll doc.content
  return { doc with definitions := ⟨definitions⟩, content := content }

def document (rasterizer : Rasterizer) (width height : Nat) (doc : Document) : Work Picture := do
  let flat ← flatten rasterizer width height doc
  Work.rasterize rasterizer ⟨flat, width, height⟩

end Bake

namespace Artifact

/-- The pixels of an artifact on a transparent square. Pixels of that size are taken as they are. -/
def bake (canvas : Canvas) (size : Nat) (a : Artifact) : Work Picture :=
  let paint := Bake.document canvas.rasterizer size size (a.toDocument canvas.resolution none)
  match a with
  | raster p _ => if p.width = size ∧ p.height = size then return p else paint
  | vector _ => paint

end Artifact

end Texture
