/- Texture/Xml/Prolog
   digest: What may stand in front of the root: a declaration, comments and instructions, and a
   document type that gives names to texts. -/

import Texture.Xml.Reference

set_option autoImplicit false
set_option relaxedAutoImplicit false

namespace Texture.Xml.Prolog

open Scan

def declared? (cs : List Char) : Option (List Char) := do
  let (_, rest) ← attribute? cs
  if startsWith "?>" rest then some rest else gap? rest

/-- What follows the declaration, if the text starts with one: a version, then perhaps an encoding
and whether the document stands alone. -/
def declaration? (cs : List Char) : Option (List Char) := do
  if startsWith "<?xml " cs then
    let rest := skipBlanks (cs.drop 5)
    let rest ← if startsWith "version" rest then declared? rest else none
    let rest ← if startsWith "encoding" rest then declared? rest else some rest
    let rest ← if startsWith "standalone" rest then (attribute? rest).map (·.2) else some rest
    behind? "?>" (skipBlanks rest)
  else some cs

def others? : Nat → List Char → Option (List Char)
  | 0, cs => some cs
  | fuel + 1, cs =>
    let rest := skipBlanks cs
    if startsWith "<!--" rest then (comment? rest).bind (others? fuel)
    else if startsWith "<?" rest then (instruction? rest).bind (others? fuel)
    else some rest

/-- What follows the address of a text outside, if there is one: one quoted text for a system
address, and two for a public one. -/
def external? (cs : List Char) : Option (List Char) := do
  if startsWith "SYSTEM" cs then
    let (_, rest) ← quoted? (← gap? (cs.drop 6))
    some rest
  else if startsWith "PUBLIC" cs then
    let (_, rest) ← quoted? (← gap? (cs.drop 6))
    let (_, rest) ← quoted? (← gap? rest)
    some rest
  else some cs

/-- A text that is given a name, or nothing for a text outside, and what follows it. -/
def entityText? (cs : List Char) : Option (Option (List Char) × List Char) :=
  if startsWith "SYSTEM" cs || startsWith "PUBLIC" cs then do
    let rest := skipBlanks (← external? cs)
    match behind? "NDATA" rest with
    | some rest => do
      let (_, rest) ← name? (← gap? rest)
      some (none, rest)
    | none => some (none, rest)
  else (quoted? cs).map fun (text, rest) => (some text, rest)

def entity? (cs : List Char) : Option (Entities × List Char) := do
  let rest ← gap? (← behind? "<!ENTITY" cs)
  let rest ← match behind? "%" rest with
    | some rest => gap? rest
    | none => some rest
  let (name, rest) ← name? rest
  let (text, rest) ← entityText? (← gap? rest)
  let rest ← behind? ">" (skipBlanks rest)
  some ((text.map fun t => (name, t)).toList, rest)

def subset? : Nat → Entities → List Char → Option (Entities × List Char)
  | 0, _, _ => none
  | fuel + 1, entities, cs => do
    let cs := skipBlanks cs
    if startsWith "<!ENTITY" cs then
      let (found, rest) ← entity? cs
      subset? fuel (entities ++ found) rest
    else if startsWith "<!--" cs then subset? fuel entities (← comment? cs)
    else if startsWith "<?" cs then subset? fuel entities (← instruction? cs)
    else if ["<!ELEMENT", "<!ATTLIST", "<!NOTATION"].any fun mark => startsWith mark cs then
      let (_, rest) ← splitFrom? ">" [] cs
      subset? fuel entities rest
    else
      let rest ← behind? ">" (skipBlanks (← behind? "]" cs))
      some (entities, rest)

def documentType? (cs : List Char) : Option (Entities × List Char) := do
  match behind? "<!DOCTYPE" cs with
  | none => some ([], cs)
  | some rest =>
    let (_, rest) ← name? (← gap? rest)
    let rest := skipBlanks (← external? (skipBlanks rest))
    match rest with
    | '>' :: rest => some ([], rest)
    | '[' :: rest => subset? (rest.length + 1) [] rest
    | _ => none

end Texture.Xml.Prolog
