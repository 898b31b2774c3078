/- Texture/Xml/Document
   digest: Whole texts with one element among what may stand in front of it and behind it. -/

import Texture.Xml.Prolog
import Texture.Xml.Token

set_option autoImplicit false
set_option relaxedAutoImplicit false

namespace Texture.Xml.Element

/-- The element of a whole text, which may start with the mark of its byte order. -/
def ofDocument? (text : String) : Option Element := do
  let cs := text.toList
  let cs := if cs.head?.any fun c => c.toNat == 65279 then cs.drop 1 else cs
  let cs ← Prolog.others? cs.length (← Prolog.declaration? cs)
  let (entities, cs) ← Prolog.documentType? cs
  let tokens ← Token.ofContent? cs
  if tokens.foldlM Token.level? 0 == some 0 then
    ofTags? (← (contentTags entities (Replacing.depthLimit + 1) tokens).run' 0)
  else none

end Texture.Xml.Element
