/- Texture/Xml/Reference
   digest: References to characters and to texts that were given a name. -/

import Texture.Number.Reader
import Texture.Xml.Scan

set_option autoImplicit false
set_option relaxedAutoImplicit false

namespace Texture.Xml

/-- Texts by their names. Of several texts of one name the first counts. -/
abbrev Entities := List (String × List Char)

inductive Part where
  | plain (c : Char)
  /-- A character spelled by its code or by one of the five names that are always known. -/
  | spelled (c : Char)
  | entity (name : String)

namespace Part

def hexValue? (c : Char) : Option Nat :=
  if c.isDigit then some (c.toNat - '0'.toNat)
  else if 'a' ≤ c ∧ c ≤ 'f' then some (c.toNat - 'a'.toNat + 10)
  else if 'A' ≤ c ∧ c ≤ 'F' then some (c.toNat - 'A'.toNat + 10)
  else none

def hexNumber? (ds : List Char) : Option Nat :=
  if ds.isEmpty then none
  else ds.foldlM (fun n d => (hexValue? d).map (16 * n + ·)) 0

def number? (ds : List Char) : Option Nat :=
  if ds.isEmpty || !ds.all Char.isDigit then none else some (Number.Reader.digitsValue ds)

/-- The character of a code of thirty-two bits; a code without a character stands for the
replacement character. -/
def ofCode? (code : Nat) : Option Part :=
  let c := if code.isValidChar then Char.ofNat code else Char.ofNat 65533
  if code < 4294967296 && isAllowed c then some (spelled c) else none

/-- What stands for a reference, given the characters between its marks. -/
def ofReference? (cs : List Char) : Option Part :=
  match cs with
  | '#' :: 'x' :: ds => (hexNumber? ds).bind ofCode?
  | '#' :: ds => (number? ds).bind ofCode?
  | _ =>
    match String.ofList cs with
    | "amp" => some (spelled '&')
    | "lt" => some (spelled '<')
    | "gt" => some (spelled '>')
    | "quot" => some (spelled '"')
    | "apos" => some (spelled '\'')
    | name =>
      match Scan.name? cs with
      | some (_, []) => some (entity name)
      | _ => none

/-- The parts before a place in reverse, and in reverse the characters of the reference in which
the place lies. -/
abbrev Progress := List Part × Option (List Char)

def step (state : Progress) (c : Char) : Option Progress :=
  match state with
  | (parts, none) => if c = '&' then some (parts, some []) else some (plain c :: parts, none)
  | (parts, some cs) =>
    if c = ';' then (ofReference? cs.reverse).map fun p => (p :: parts, none)
    else some (parts, some (c :: cs))

def ofText? (cs : List Char) : Option (List Part) := do
  match ← cs.foldlM step ([], none) with
  | (parts, none) => some parts.reverse
  | (_, some _) => none

end Part

abbrev Replacing := StateT Nat Option

namespace Replacing

/-- How deep references may lie in texts that stand for references. -/
def depthLimit : Nat := 10

/-- How many references a text may lead to that stands for a reference of the document itself. -/
def countLimit : Nat := 255

def count (deeper : Nat) : Replacing Unit := do
  if deeper = depthLimit then set countLimit
  else
    let left ← get
    if left = 0 then failure else set (left - 1)

def textOf (entities : Entities) (deeper : Nat) (name : String) : Replacing (List Char) := do
  count deeper
  match entities.lookup name with
  | some text => return text
  | none => failure

end Replacing

/-- A text without the line ends that consist of two characters: they become the second. -/
def joinLineEnds : List Char → List Char
  | '\r' :: '\n' :: cs => '\n' :: joinLineEnds cs
  | c :: cs => c :: joinLineEnds cs
  | [] => []

/-- The value of an attribute: references are replaced and blanks become spaces. -/
def attributeValue (entities : Entities) : Nat → List Char → Replacing (List Char)
  | 0, _ => failure
  | deeper + 1, cs => do
    let parts ← StateT.lift (Part.ofText? (joinLineEnds cs))
    let texts ← parts.mapM fun p =>
      match p with
      | .plain c => if c = '<' then failure else return [if isBlank c then ' ' else c]
      | .spelled c => return [c]
      | .entity name => do
        attributeValue entities deeper (← Replacing.textOf entities deeper name)
    return texts.flatten

end Texture.Xml
