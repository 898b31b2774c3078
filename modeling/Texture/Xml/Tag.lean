/- Texture/Xml/Tag
   digest: Elements as runs of tags. -/

import Texture.Xml.Element

set_option autoImplicit false
set_option relaxedAutoImplicit false

namespace Texture.Xml

inductive Tag where
  | start (name : String) (attributes : List Attribute)
  | whole (name : String) (attributes : List Attribute)
  | stop (name : String)

namespace Tag

/-- How many elements are open behind a tag, given how many are open in front of it; none if there
is no element to close. -/
def level? (level : Nat) : Tag → Option Nat
  | start _ _ => some (level + 1)
  | whole _ _ => some level
  | stop _ => if level = 0 then none else some (level - 1)

def areBalanced (tags : List Tag) : Bool := tags.foldlM level? 0 == some 0

end Tag

namespace Element

/-- An element that is still open, its children in reverse. -/
structure Open where
  name : String
  attributes : List Attribute
  children : List Element

/-- The elements still open, the innermost first, and the root once it is closed. -/
structure Growth where
  opened : List Open
  root : Option Element

def place (e : Element) : List Open → Growth
  | [] => ⟨[], some e⟩
  | o :: rest => ⟨{ o with children := e :: o.children } :: rest, none⟩

def grow (g : Growth) (t : Tag) : Option Growth :=
  match g.root with
  | some _ => none
  | none =>
    match t with
    | .start name attributes => some { g with opened := ⟨name, attributes, []⟩ :: g.opened }
    | .whole name attributes => some (place (leaf name attributes) g.opened)
    | .stop name =>
      match g.opened with
      | [] => none
      | o :: rest =>
        if o.name = name then some (place (branch o.name o.attributes o.children.reverse) rest)
        else none

def ofTags? (tags : List Tag) : Option Element := do
  (← tags.foldlM grow ⟨[], none⟩).root

end Element

end Texture.Xml
