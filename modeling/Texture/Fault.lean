/- Texture/Fault
   digest: What can go wrong between a project file and its pixels, and how it is told. -/

set_option autoImplicit false
set_option relaxedAutoImplicit false

namespace Texture

inductive Fault where
  /-- A setting lies outside its range. -/
  | validation (text : String)
  /-- Pixels could not be made or read. -/
  | rasterization (text : String)
  /-- A node feeds itself. -/
  | cyclic (node : String)
  /-- A project text does not describe a project. -/
  | serialization (text : String)
  /-- A failure of the surroundings. -/
  | other (text : String)
  deriving DecidableEq, Repr, Inhabited

namespace Fault

def message : Fault → String
  | validation text => s!"validation error: {text}"
  | rasterization text => s!"rasterization error: {text}"
  | cyclic node => s!"cyclic graph: node '{node}' is reachable from itself"
  | serialization text => s!"serialization error: {text}"
  | other text => text

/-- A live preview keeps its last frame on failures of this kind and shows all others. -/
def isRecoverable : Fault → Bool
  | rasterization _ => true
  | _ => false

end Fault

end Texture
