/- Texture/Svg/Source
   digest: Documents given as text. -/

import Texture.Xml.Document
import Texture.Xml.Namespace

set_option autoImplicit false
set_option relaxedAutoImplicit false

namespace Texture.Svg.Source

open Xml (Element ExpandedName Vocabulary)

/-- The address of the vocabulary of documents. -/
def address : String := "http://www.w3.org/2000/svg"

def linkAddress : String := "http://www.w3.org/1999/xlink"

/-- Elements of documents, also without a vocabulary, and their attributes; the names of links keep
the first part that they have in documents. -/
def vocabulary : Vocabulary where
  elementKey n := if n.address.all (· == address) then some n.name else none
  attributeKey n :=
    if n.address.all fun a => a == address || a == Xml.coreAddress then some n.name
    else if n.address == some linkAddress then some ("xlink:" ++ n.name)
    else none

def depthLimit : Nat := 1024

mutual

def isShallow : Nat → Element → Bool
  | _, .leaf _ _ => true
  | depth, .branch _ _ children =>
    children.isEmpty || (0 < depth && areShallow (depth - 1) children)

def areShallow : Nat → List Element → Bool
  | _, [] => true
  | depth, e :: es => isShallow depth e && areShallow depth es

end

def ofText? (text : String) : Option Element := do
  match ← vocabulary.read? [] (← Element.ofDocument? text) with
  | [e] => if isShallow depthLimit e then some e else none
  | _ => none

end Texture.Svg.Source
