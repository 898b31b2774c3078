/- Texture/Xml/Reader
   digest: Elements from texts made of nested tags with quoted attributes and nothing between
   them. -/

import Texture.Xml.Character
import Texture.Xml.Tag

set_option autoImplicit false
set_option relaxedAutoImplicit false

namespace Texture.Xml

namespace Tag

/-- What the characters read last belong to; what is gathered is kept in reverse. -/
inductive Mode where
  | between
  /-- Right behind the opening bracket. -/
  | opened
  | name (cs : List Char)
  | stopName (cs : List Char)
  /-- Behind the name of a tag or one of its attributes. -/
  | inside (name : String) (attributes : List Attribute)
  | key (name : String) (attributes : List Attribute) (cs : List Char)
  /-- Behind an equals sign. -/
  | equals (name : String) (attributes : List Attribute) (key : String)
  | value (name : String) (attributes : List Attribute) (key : String) (cs : List Char)
  | entity (name : String) (attributes : List Attribute) (key : String) (cs es : List Char)
  /-- Behind the slash of a tag without children. -/
  | slash (name : String) (attributes : List Attribute)

def entity? (cs : List Char) : Option Char :=
  match String.ofList cs with
  | "amp" => some '&'
  | "lt" => some '<'
  | "gt" => some '>'
  | "quot" => some '"'
  | "apos" => some '\''
  | _ => none

def isLetter (c : Char) : Bool := c.isAlphanum || c == ':' || c == '-' || c == '_' || c == '.'

def afterName (tags : List Tag) (name : String) (attributes : List Attribute) (c : Char) :
    Option (List Tag × Mode) :=
  if c = '>' then some (start name attributes.reverse :: tags, .between)
  else if c = '/' then some (tags, .slash name attributes)
  else if isBlank c then some (tags, .inside name attributes)
  else none

def step (state : List Tag × Mode) (c : Char) : Option (List Tag × Mode) :=
  let (tags, mode) := state
  match mode with
  | .between => if c = '<' then some (tags, .opened) else none
  | .opened =>
    if c = '/' then some (tags, .stopName [])
    else if isLetter c then some (tags, .name [c])
    else none
  | .name cs =>
    if isLetter c then some (tags, .name (c :: cs))
    else afterName tags (String.ofList cs.reverse) [] c
  | .stopName cs =>
    if c = '>' then
      if cs.isEmpty then none else some (stop (String.ofList cs.reverse) :: tags, .between)
    else if isLetter c then some (tags, .stopName (c :: cs))
    else none
  | .inside name attributes =>
    if isLetter c then some (tags, .key name attributes [c])
    else afterName tags name attributes c
  | .key name attributes cs =>
    if c = '=' then
      let key := String.ofList cs.reverse
      if attributes.any fun a => a.1 == key then none
      else some (tags, .equals name attributes key)
    else if isLetter c then some (tags, .key name attributes (c :: cs))
    else none
  | .equals name attributes key =>
    if c = '"' then some (tags, .value name attributes key []) else none
  | .value name attributes key cs =>
    if c = '"' then
      some (tags, .inside name ((key, String.ofList cs.reverse) :: attributes))
    else if c = '&' then some (tags, .entity name attributes key cs [])
    else if c = '<' then none
    else some (tags, .value name attributes key (c :: cs))
  | .entity name attributes key cs es =>
    if c = ';' then
      (entity? es.reverse).map fun d => (tags, .value name attributes key (d :: cs))
    else some (tags, .entity name attributes key cs (c :: es))
  | .slash name attributes =>
    if c = '>' then some (whole name attributes.reverse :: tags, .between) else none

def ofText? (text : String) : Option (List Tag) := do
  match ← text.toList.foldlM step ([], .between) with
  | (tags, .between) => some tags.reverse
  | _ => none

end Tag

namespace Element

def ofText? (text : String) : Option Element := do
  ofTags? (← Tag.ofText? text)

end Element

end Texture.Xml
