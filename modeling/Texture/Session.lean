/- Texture/Session
   digest: What operators share while a graph is evaluated: the canvas, the ids given out so far,
   and the pixels asked for so far. -/

import Texture.Picture
import Texture.Svg.Document

set_option autoImplicit false
set_option relaxedAutoImplicit false

namespace Texture

structure Request where
  document : Svg.Document
  width : Nat
  height : Nat

/-- Answers a wish for pixels, knowing all earlier wishes in their order. An answer may have another
size than the wish, but it is a `Picture`: painters that hand over edges out of range, or another
number of bytes than their edges ask for, are left out. -/
abbrev Rasterizer := List Request → Request → Except Fault Picture

structure Canvas where
  resolution : Resolution
  rasterizer : Rasterizer

structure Session where
  /-- How many ids were given out. -/
  minted : Nat
  /-- The wishes for pixels in their order. -/
  requests : List Request

namespace Session

def start : Session := ⟨0, []⟩

end Session

/-- Work that may fail; what happened before the failure stays known. -/
abbrev Work := ExceptT Fault (StateM Session)

namespace Work

/-- A new id: the stem and the number of ids given out with it. -/
def freshId (stem : String) : Work String := do
  let count := (← get).minted + 1
  modify fun session => { session with minted := count }
  return stem ++ "_" ++ toString count

def rasterize (rasterizer : Rasterizer) (request : Request) : Work Picture := do
  let earlier := (← get).requests
  modify fun session => { session with requests := earlier ++ [request] }
  match rasterizer earlier request with
  | .ok picture => return picture
  | .error fault => throw fault

def ofExcept {α : Type} : Except Fault α → Work α
  | .ok x => return x
  | .error fault => throw fault

end Work

end Texture
