/- Texture/Resolution
   digest: Edge lengths of square canvases, and the four sizes offered for export. -/

import Texture.Fault
import Texture.Number.Binary

set_option autoImplicit false
set_option relaxedAutoImplicit false

namespace Texture

/-- The longest edge for which pixels are ever laid out. -/
def maxEdge : Nat := 16384

/-- The edge length in pixels of a square canvas, on which coordinates run from zero to it. -/
structure Resolution where
  pixels : Nat
  positive : 0 < pixels
  bounded : pixels ≤ maxEdge
  deriving DecidableEq

namespace Resolution

def ofPixels (px : Nat) : Except Fault Resolution :=
  if positive : 0 < px then
    if bounded : px ≤ maxEdge then .ok ⟨px, positive, bounded⟩
    else .error (.validation s!"resolution {px} exceeds maximum {maxEdge}")
  else .error (.validation "resolution must be > 0")

def standard : Resolution := ⟨512, by decide, by decide⟩

instance : Inhabited Resolution := ⟨standard⟩

/-- The edge length as a coordinate. -/
def edge (r : Resolution) : Float := Number.Binary.ofNat false r.pixels

def centre (r : Resolution) : Float := r.edge / 2.0

end Resolution

inductive ExportSize where
  | small
  | medium
  | large
  | huge
  deriving DecidableEq, Repr

namespace ExportSize

def all : List ExportSize := [small, medium, large, huge]

def resolution : ExportSize → Resolution
  | small => ⟨512, by decide, by decide⟩
  | medium => ⟨1024, by decide, by decide⟩
  | large => ⟨2048, by decide, by decide⟩
  | huge => ⟨4096, by decide, by decide⟩

def ofPixels (px : Nat) : Except Fault ExportSize :=
  match all.find? fun size => size.resolution.pixels == px with
  | some size => .ok size
  | none =>
    .error (.validation
      s!"unsupported export resolution {px} (expected 512, 1024, 2048 or 4096)")

end ExportSize

end Texture
