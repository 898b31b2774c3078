/- Texture/Operator/Decode
   digest: Parameters from stored bags. Nothing fails: what is missing, of the wrong type or not
   finite has its default. -/

import Texture.Json.Basic
import Texture.Number.Reader
import Texture.Operator.Kind
import Texture.Operator.Settings
import Texture.Text.Blank

set_option autoImplicit false
set_option relaxedAutoImplicit false

namespace Texture

open Number (Binary)

namespace Bag

/-- A finite number, which may be spelled in a text. -/
def number? (bag : Bag) (key : String) : Option Float := do
  let x ← match ← bag.get? key with
    | .number n => some n.toFloat
    | .string s => Number.Reader.float? (Text.trim s.toList)
    | _ => none
  if Binary.isFinite x then some x else none

/-- A number that is not negative; negative ones count as zero. -/
def size? (bag : Bag) (key : String) : Option Float :=
  (bag.number? key).map (Number.larger · 0.0)

def unit? (bag : Bag) (key : String) : Option Float :=
  (bag.number? key).map (Number.clamp · 0.0 1.0)

/-- A whole number between two bounds, halves rounded up. -/
def count? (bag : Bag) (key : String) (low high : Float) : Option Nat :=
  (bag.number? key).map fun x =>
    Binary.wholePart (Number.clamp (Binary.roundHalfAway x) low high)

/-- A switch: a truth value, its name, or a number other than zero. -/
def switch? (bag : Bag) (key : String) : Option Bool := do
  match ← bag.get? key with
  | .bool b => some b
  | .string s =>
    match String.ofList (Text.trim s.toList) with
    | "true" => some true
    | "false" => some false
    | _ => none
  | .number n => some (n.toFloat != 0.0)
  | _ => none

def text? (bag : Bag) (key : String) : Option String := (bag.get? key).bind Json.text?

/-- A colour whose channels stand in an object of their own or in the bag itself; channels that are
missing have full intensity. -/
def color (bag : Bag) : Color :=
  let source := ((bag.get? "color").bind Json.fields?).getD bag
  let channel (key : String) : UInt8 :=
    UInt8.ofNat ((Bag.count? source key 0.0 255.0).getD 255)
  ⟨channel "r", channel "g", channel "b"⟩

end Bag

namespace Gradient

def stopOfBag (bag : Bag) : GradientStop :=
  ⟨Number.Position.ofFloat ((bag.unit? "offset").getD 0.0), bag.color,
    (bag.unit? "opacity").getD 1.0⟩

/-- The stops of a stored gradient; none if no usable ones are stored. -/
def stopsOfBag (bag : Bag) : List GradientStop :=
  match bag.get? "stops" with
  | some (.array items) => (items.filterMap Json.fields?).map stopOfBag
  | _ => []

def ofBag (bag : Bag) : Gradient :=
  let stops := stopsOfBag bag
  let base := if stops.isEmpty then ofStops standard.stops else ofStops stops
  { base with
    directionX := (bag.number? "directionX").getD 1.0
    directionY := (bag.number? "directionY").getD 0.0
    power := ((bag.number? "power").filter (0.0 < ·)).getD 1.0 }

end Gradient

def GlowSettings.ofBag (halo : Halo) (bag : Bag) : GlowSettings :=
  let usual := standard halo
  ⟨halo, (bag.size? "radius").getD usual.radius, (bag.size? "intensity").getD usual.intensity⟩

def PolarSettings.ofBag (bag : Bag) : PolarSettings where
  mode :=
    match (bag.text? "type").map fun s =>
        String.ofList ((Text.trim s.toList).map Char.toLower) with
    | some "polar_to_rect" => .polarToRect
    | some "ring" => .polarToRect
    | _ => .rectToPolar
  offsetX := (bag.number? "x").getD 0.0
  offsetY := (bag.number? "y").getD 0.0
  radialScale := (bag.number? "radialScale").getD 1.0
  angularScale := (bag.number? "angularScale").getD 1.0

namespace Settings

def ofBag (op : Operator) (bag : Bag) : Settings :=
  match op with
  | .rectangle => .rectangle {
      width := (bag.size? "width").getD 300.0
      height := (bag.size? "height").getD 300.0
      topLeft := (bag.size? "rTL").getD 0.0
      topRight := (bag.size? "rTR").getD 0.0
      bottomRight := (bag.size? "rBR").getD 0.0
      bottomLeft := (bag.size? "rBL").getD 0.0 }
  | .circle => .circle {
      width := (bag.size? "width").getD 300.0
      height := (bag.size? "height").getD 300.0 }
  | .polygon => .polygon {
      points := (bag.count? "points" 3.0 1024.0).getD 5
      outer := (bag.size? "outerRadius").getD 100.0
      inner := (bag.size? "innerRadius").getD 50.0 }
  | .wavyRing => .wavyRing {
      radius := (bag.size? "radius").getD 100.0
      frequency := (bag.number? "frequency").getD 20.0
      amplitude := (bag.number? "amplitude").getD 10.0 }
  | .beam => .beam {
      length := (bag.size? "length").getD 250.0
      topWidth := (bag.size? "topWidth").getD 5.0
      bottomWidth := (bag.size? "bottomWidth").getD 100.0 }
  | .gradient => .gradient (Gradient.ofBag bag)
  | .color => .color {
      color := bag.color
      opacity := ((bag.unit? "opacity").or (bag.unit? "a")).getD 1.0 }
  | .value => .value ((bag.unit? "value").getD 0.5)
  | .alpha => .alpha ((bag.unit? "value").getD 1.0)
  | .image =>
    .image ((bag.text? "image").filter fun s => !(Text.trim s.toList).isEmpty)
  | .add => .math .union
  | .subtract => .math .difference
  | .multiply => .math .intersection
  | .divide => .math .exclusion
  | .fill => .fill {
      enabled := (bag.switch? "fillEnabled").getD true
      strokeWidth := (bag.size? "strokeWidth").getD 0.0 }
  | .glow => .glow (GlowSettings.ofBag .glow bag)
  | .neon => .glow (GlowSettings.ofBag .neon bag)
  | .softBlur => .softBlur ((bag.size? "radius").getD 5.0)
  | .stroke => .stroke {
      width := (bag.size? "width").getD 1.0
      opacity := (bag.unit? "opacity").getD 1.0 }
  | .gradientFade => .gradientFade {
      direction := (bag.number? "direction").getD 90.0
      start := (bag.unit? "start").getD 1.0
      stop := (bag.unit? "end").getD 0.0 }
  | .pixelate => .pixelate ((bag.count? "pixelSize" 1.0 4096.0).getD 8)
  | .translate => .translate {
      x := (bag.number? "x").getD 0.0
      y := (bag.number? "y").getD 0.0 }
  | .rotate => .rotate ((bag.number? "angle").getD 0.0)
  | .scale => .scale ((bag.number? "scale").getD 1.0)
  | .polar => .polar (PolarSettings.ofBag bag)
  | .output => .output
  | .unknown => .unknown

end Settings

end Texture
