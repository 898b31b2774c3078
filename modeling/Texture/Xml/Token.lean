/- Texture/Xml/Token
   digest: Content as tags and the texts between them, with comments and instructions left out. -/

import Texture.Xml.Reference
import Texture.Xml.Tag

set_option autoImplicit false
set_option relaxedAutoImplicit false

namespace Texture.Xml

inductive Token where
  | tag (t : Tag)
  | text (cs : List Char)
  /-- A text in which no character has a meaning of its own. -/
  | verbatim

namespace Token

def start? (fuel : Nat) (cs : List Char) : Option (Token × List Char) := do
  let (name, rest) ← Scan.qualifiedName? cs
  let (attributes, whole, rest) ← Scan.attributes? fuel rest
  some (.tag (if whole then .whole name attributes else .start name attributes), rest)

def stop? (cs : List Char) : Option (Token × List Char) := do
  let (name, rest) ← Scan.qualifiedName? cs
  some (.tag (.stop name), ← Scan.behind? ">" (Scan.skipBlanks rest))

/-- Text up to the next tag. The mark that ends a verbatim text must not stand in it. -/
def text? (cs : List Char) : Option (Token × List Char) :=
  let front := cs.takeWhile (· != '<')
  if front.all isAllowed && (Scan.splitFrom? "]]>" [] front).isNone then
    some (text front, cs.dropWhile (· != '<'))
  else none

def next? (fuel : Nat) (cs : List Char) : Option (Option Token × List Char) :=
  let found := Option.map fun ((t : Token), rest) => (some t, rest)
  match cs with
  | '<' :: '/' :: rest => found (stop? rest)
  | '<' :: '?' :: _ => (Scan.instruction? cs).map (none, ·)
  | '<' :: '!' :: _ =>
    match Scan.behind? "<![CDATA[" cs with
    | some rest => (Scan.upTo? "]]>" rest).map fun (_, rest) => (some .verbatim, rest)
    | none => (Scan.comment? cs).map (none, ·)
  | '<' :: rest => found (start? fuel rest)
  | _ => found (text? cs)

/-- The pieces of content behind others in reverse. Each piece and each attribute uses up
characters, so their number bounds the search. -/
def collect : Nat → List Token → List Char → Option (List Token)
  | _, tokens, [] => some tokens.reverse
  | 0, _, _ => none
  | fuel + 1, tokens, cs => do
    let (t, rest) ← next? fuel cs
    collect fuel (t.toList ++ tokens) rest

def ofContent? (cs : List Char) : Option (List Token) := collect (cs.length + 1) [] cs

/-- How many elements are open behind a piece, given how many are open in front of it. Outside of
all elements there are only blanks. -/
def level? (level : Nat) : Token → Option Nat
  | tag t => t.level? level
  | text cs => if 0 < level || cs.all isBlank then some level else none
  | .verbatim => if 0 < level then some level else none

end Token

namespace Tag

def mapValues (f : List Char → Replacing (List Char)) (t : Tag) : Replacing Tag :=
  let all (attributes : List Attribute) : Replacing (List Attribute) :=
    attributes.mapM fun (key, value) => do return (key, String.ofList (← f value.toList))
  match t with
  | start name attributes => do return start name (← all attributes)
  | whole name attributes => do return whole name (← all attributes)
  | stop name => return stop name

end Tag

/-- The tags of content. A reference in a text stands for content in which all is closed that is
opened. -/
def contentTags (entities : Entities) : Nat → List Token → Replacing (List Tag)
  | 0, _ => failure
  | deeper + 1, tokens => do
    let runs ← tokens.mapM fun token =>
      match token with
      | .tag t => do return [← t.mapValues (attributeValue entities (deeper + 1))]
      | .verbatim => return []
      | .text cs => do
        let parts ← StateT.lift (Part.ofText? cs)
        let runs ← parts.mapM fun p =>
          match p with
          | .entity name => do
            let text ← Replacing.textOf entities deeper name
            let tags ← contentTags entities deeper (← StateT.lift (Token.ofContent? text))
            if Tag.areBalanced tags then return tags else failure
          | _ => return []
        return runs.flatten
    return runs.flatten

end Texture.Xml
