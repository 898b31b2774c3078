/- Texture/Xml/Namespace
   digest: Names in the vocabularies to which their first parts are bound, and elements whose names
   are told apart by vocabulary. -/

import Texture.Xml.Element

set_option autoImplicit false
set_option relaxedAutoImplicit false

namespace Texture.Xml

/-- The address of the vocabulary to which the first part `xml` is always bound. -/
def coreAddress : String := "http://www.w3.org/XML/1998/namespace"

/-- The address of the vocabulary of bindings, to which nothing else can be bound. -/
def bindingAddress : String := "http://www.w3.org/2000/xmlns/"

/-- Addresses by the first parts that are bound to them; the empty part is that of names without a
first part. -/
abbrev Scope := List (String × String)

def nameParts (name : String) : String × String :=
  match name.splitOn ":" with
  | [first, second] => (first, second)
  | _ => ("", name)

structure ExpandedName where
  address : Option String
  name : String
  deriving DecidableEq

namespace Scope

def isBinding (a : Attribute) : Bool :=
  let (first, second) := nameParts a.1
  first == "xmlns" || second == "xmlns"

/-- Adds the binding of an attribute to those of the same element. No part is bound twice, and the
addresses that are always bound stay with their own parts. -/
def bind? (own : Scope) (a : Attribute) : Option Scope :=
  let (first, second) := nameParts a.1
  if first = "xmlns" then
    let isCore := second == "xml"
    if a.2 == bindingAddress || isCore != (a.2 == coreAddress) || (own.lookup second).isSome then
      none
    else if isCore then some own
    else some (own ++ [(second, a.2)])
  else if a.2 = bindingAddress ∨ a.2 = coreAddress then none
  else some (own ++ [("", a.2)])

def enter? (scope : Scope) (attributes : List Attribute) : Option Scope := do
  return (← (attributes.filter isBinding).foldlM bind? []) ++ scope

def elementName? (scope : Scope) (name : String) : Option ExpandedName :=
  let (first, second) := nameParts name
  match scope.lookup first with
  | some address => some ⟨some address, second⟩
  | none => if first = "" then some ⟨none, second⟩ else none

/-- The name of an attribute. Without a first part it is in no vocabulary. -/
def attributeName? (scope : Scope) (name : String) : Option ExpandedName :=
  let (first, second) := nameParts name
  if first = "" then some ⟨none, second⟩
  else if first = "xml" then some ⟨some coreAddress, second⟩
  else (scope.lookup first).map fun address => ⟨some address, second⟩

end Scope

/-- The names that are of use, each with the name under which it is known. -/
structure Vocabulary where
  elementKey : ExpandedName → Option String
  attributeKey : ExpandedName → Option String

namespace Vocabulary

def attributes? (v : Vocabulary) (scope : Scope) (attributes : List Attribute) :
    Option (List Attribute) := do
  let named ← (attributes.filter fun a => !Scope.isBinding a).mapM fun a =>
    (scope.attributeName? a.1).map fun name => (name, a.2)
  if (named.map Prod.fst).eraseDups.length = named.length then
    some (named.filterMap fun (name, value) => (v.attributeKey name).map fun key => (key, value))
  else none

mutual

def read? (v : Vocabulary) (scope : Scope) : Element → Option (List Element)
  | .leaf name attributes => do
    let scope ← scope.enter? attributes
    let attributes ← v.attributes? scope attributes
    return ((v.elementKey (← scope.elementName? name)).map fun n => .leaf n attributes).toList
  | .branch name attributes children => do
    let scope ← scope.enter? attributes
    let attributes ← v.attributes? scope attributes
    let name ← scope.elementName? name
    let children ← readAll? v scope children
    return ((v.elementKey name).map fun n => .branch n attributes children).toList

def readAll? (v : Vocabulary) (scope : Scope) : List Element → Option (List Element)
  | [] => some []
  | e :: es => do
    let first ← read? v scope e
    let rest ← readAll? v scope es
    return first ++ rest

end

end Vocabulary

end Texture.Xml
