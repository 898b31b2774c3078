/- Texture/Xml/Scan
   digest: The smallest parts of a text, each with what follows it: marks, names, quoted values,
   attributes, and what is passed by. -/

import Texture.Xml.Character
import Texture.Xml.Element

set_option autoImplicit false
set_option relaxedAutoImplicit false

namespace Texture.Xml.Scan

def startsWith (mark : String) (cs : List Char) : Bool := mark.toList.isPrefixOf cs

def behind? (mark : String) (cs : List Char) : Option (List Char) :=
  if startsWith mark cs then some (cs.drop mark.length) else none

/-- What stands in front of the first place of a mark, and what follows the mark. The part in front
that is known already comes in reverse. -/
def splitFrom? (mark : String) : List Char → List Char → Option (List Char × List Char)
  | _, [] => none
  | front, c :: cs =>
    match behind? mark (c :: cs) with
    | some rest => some (front.reverse, rest)
    | none => splitFrom? mark (c :: front) cs

def upTo? (mark : String) (cs : List Char) : Option (List Char × List Char) :=
  (splitFrom? mark [] cs).filter fun (front, _) => front.all isAllowed

def skipBlanks (cs : List Char) : List Char := cs.dropWhile isBlank

def gap? : List Char → Option (List Char)
  | [] => none
  | c :: cs => if isBlank c then some (skipBlanks cs) else none

def name? (cs : List Char) : Option (String × List Char) :=
  if (cs.head?.filter isNameStart).isSome then
    some (String.ofList (cs.takeWhile isNamePart), cs.dropWhile isNamePart)
  else none

/-- A name that may consist of two parts with a colon between them. An empty first part counts as
none. -/
def qualifiedName? (cs : List Char) : Option (String × List Char) :=
  let starts (part : List Char) : Bool := (part.head?.filter isNameStart).isSome
  let word := cs.takeWhile isNamePart
  let first := word.takeWhile (· != ':')
  let rest := cs.dropWhile isNamePart
  match word.dropWhile (· != ':') with
  | [] => if starts first then some (String.ofList first, rest) else none
  | _ :: second =>
    if !starts second || second.contains ':' then none
    else if first.isEmpty then some (String.ofList second, rest)
    else if starts first then some (String.ofList word, rest)
    else none

def quoted? : List Char → Option (List Char × List Char)
  | [] => none
  | mark :: cs =>
    if mark == '"' || mark == '\'' then
      match cs.dropWhile (· != mark) with
      | [] => none
      | _ :: rest => some (cs.takeWhile (· != mark), rest)
    else none

def attribute? (cs : List Char) : Option (Attribute × List Char) := do
  let (key, rest) ← qualifiedName? cs
  let rest ← behind? "=" (skipBlanks rest)
  let (value, rest) ← quoted? (skipBlanks rest)
  if value.all fun c => isAllowed c && c != '<' then some ((key, String.ofList value), rest)
  else none

/-- The attributes behind a name, whether the tag closes itself, and what follows the tag. In front
of each attribute there are blanks. -/
def attributes? : Nat → List Char → Option (List Attribute × Bool × List Char)
  | 0, _ => none
  | fuel + 1, cs =>
    match skipBlanks cs with
    | '>' :: rest => some ([], false, rest)
    | '/' :: '>' :: rest => some ([], true, rest)
    | _ => do
      let (a, rest) ← attribute? (← gap? cs)
      let (more, whole, rest) ← attributes? fuel rest
      some (a :: more, whole, rest)

/-- What follows the comment that a text starts with. It holds no two hyphens in a row and does not
end in a hyphen. -/
def comment? (cs : List Char) : Option (List Char) := do
  let (front, rest) ← upTo? "-->" (← behind? "<!--" cs)
  if (splitFrom? "--" [] front).isSome || front.getLast? == some '-' then none else some rest

/-- What follows the instruction that a text starts with. It has a name, and it is not a
declaration. -/
def instruction? (cs : List Char) : Option (List Char) := do
  let (_, rest) ← name? (← behind? "<?" cs)
  if startsWith "<?xml " cs then none
  else
    let (_, rest) ← upTo? "?>" (skipBlanks rest)
    some rest

end Texture.Xml.Scan
