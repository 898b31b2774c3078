/- Texture/Operator/Apply
   digest: What each operator makes of its inputs. -/

import Texture.Operator.Combine
import Texture.Operator.Kind
import Texture.Operator.Pixelate
import Texture.Operator.Place
import Texture.Operator.Polar
import Texture.Operator.Restyle
import Texture.Operator.Shapes
import Texture.Operator.Soften
import Texture.Operator.Swatches

set_option autoImplicit false
set_option relaxedAutoImplicit false

namespace Texture

structure Inputs where
  only : Option Artifact
  first : Option Artifact
  second : Option Artifact

namespace Inputs

def none : Inputs := ⟨.none, .none, .none⟩

def set (inputs : Inputs) (a : Artifact) : Handle → Inputs
  | .only => { inputs with only := some a }
  | .first => { inputs with first := some a }
  | .second => { inputs with second := some a }

end Inputs

namespace Settings

/-- What an output shows when nothing is connected to it. -/
def placeholder (r : Resolution) : Artifact :=
  .single (Svg.Node.canvas r (Svg.Style.solid (Color.gray 0x11)))

def apply (s : Settings) (canvas : Canvas) (inputs : Inputs) : Work Artifact :=
  let r := canvas.resolution
  match s with
  | rectangle s => return Shapes.rectangle r s
  | circle s => return Shapes.circle r s
  | polygon s => return Shapes.polygon r s
  | wavyRing s => return Shapes.wavyRing r s
  | beam s => Shapes.beam r s
  | gradient g => Shapes.gradient r g
  | color s => Swatches.color r s inputs.only
  | value level => return Swatches.value r level
  | alpha opacity => return Swatches.alpha r opacity inputs.only
  | image payload => Work.ofExcept (Swatches.image payload)
  | math c => c.apply r inputs.first inputs.second
  | fill s => return Restyle.fill s inputs.only
  | glow s => Soften.glow r s inputs.only
  | softBlur radius => Soften.blur r radius inputs.only
  | stroke s => return Restyle.stroke s inputs.only
  | gradientFade s => Soften.fade r s inputs.only
  | pixelate size => Pixelate.apply canvas size inputs.only
  | translate s => return Place.translate r s inputs.only
  | rotate degrees => return Place.rotate r degrees inputs.only
  | scale factor => return Place.scale r factor inputs.only
  | polar s => Polar.apply canvas s inputs.only
  | output => return inputs.only.getD (placeholder r)
  | unknown => return .empty

end Settings

end Texture
