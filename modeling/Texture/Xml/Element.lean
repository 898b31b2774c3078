/- Texture/Xml/Element
   digest: Trees of elements with attributes, and their text. -/

set_option autoImplicit false
set_option relaxedAutoImplicit false

namespace Texture.Xml

abbrev Attribute := String × String

/-- An element that is closed in its own tag, or one with an end tag behind its children. -/
inductive Element where
  | leaf (name : String) (attributes : List Attribute)
  | branch (name : String) (attributes : List Attribute) (children : List Element)
  deriving Inhabited

/-- A character of an attribute. The five characters with a meaning of their own are spelled as
entities. -/
def escapeChar (c : Char) : List Char :=
  if c = '&' then ['&', 'a', 'm', 'p', ';']
  else if c = '<' then ['&', 'l', 't', ';']
  else if c = '>' then ['&', 'g', 't', ';']
  else if c = '"' then ['&', 'q', 'u', 'o', 't', ';']
  else if c = '\'' then ['&', 'a', 'p', 'o', 's', ';']
  else [c]

def escape (text : String) : String := String.ofList (text.toList.flatMap escapeChar)

def Attribute.write (a : Attribute) : String := " " ++ a.1 ++ "=\"" ++ escape a.2 ++ "\""

def writeAttributes (attributes : List Attribute) : String :=
  attributes.foldl (fun text a => text ++ a.write) ""

namespace Element

mutual

def write : Element → String
  | leaf name attributes => "<" ++ name ++ writeAttributes attributes ++ "/>"
  | branch name attributes children =>
    "<" ++ name ++ writeAttributes attributes ++ ">" ++ writeAll children ++ "</" ++ name ++ ">"

def writeAll : List Element → String
  | [] => ""
  | e :: es => write e ++ writeAll es

end

end Element

end Texture.Xml
