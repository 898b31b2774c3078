/- Texture/Json/Basic
   digest: Values of the notation in which projects are stored, and bags of named values. -/

import Texture.Number.Binary

set_option autoImplicit false
set_option relaxedAutoImplicit false

namespace Texture

namespace Json

/-- A number as it was written: whole numbers that fit into sixty-four bits stay whole. -/
inductive Numeral where
  | natural (n : Nat)
  /-- The number below zero of the given magnitude. -/
  | negative (n : Nat)
  | real (x : Float)
  deriving DecidableEq, Inhabited

namespace Numeral

def toFloat : Numeral → Float
  | natural n => Number.Binary.ofNat false n
  | negative n => Number.Binary.ofNat true n
  | real x => x

/-- Whole numbers agree as such, floats by their value. -/
def agrees : Numeral → Numeral → Bool
  | natural m, natural n => m == n
  | negative m, negative n => m == n
  | real x, real y => x == y
  | _, _ => false

end Numeral

end Json

inductive Json where
  | null
  | bool (b : Bool)
  | number (n : Json.Numeral)
  | string (s : String)
  | array (items : List Json)
  | object (fields : List (String × Json))
  deriving Inhabited

/-- Named values in ascending order of their names. -/
abbrev Bag := List (String × Json)

namespace Bag

def get? (bag : Bag) (name : String) : Option Json := List.lookup name bag

def insert (name : String) (value : Json) : Bag → Bag
  | [] => [(name, value)]
  | (first, old) :: rest =>
    if name < first then (name, value) :: (first, old) :: rest
    else if name = first then (name, value) :: rest
    else (first, old) :: insert name value rest

/-- Collects named values; of two values for one name the later one counts. -/
def ofList (fields : List (String × Json)) : Bag :=
  fields.foldl (fun bag field => insert field.1 field.2 bag) []

def merge (bag patch : Bag) : Bag :=
  patch.foldl (fun bag field => insert field.1 field.2 bag) bag

end Bag

namespace Json

mutual

def agrees : Json → Json → Bool
  | null, null => true
  | bool a, bool b => a == b
  | number m, number n => m.agrees n
  | string s, string t => s == t
  | array xs, array ys => agreeItems xs ys
  | object xs, object ys => agreeFields xs ys
  | _, _ => false

def agreeItems : List Json → List Json → Bool
  | [], [] => true
  | x :: xs, y :: ys => agrees x y && agreeItems xs ys
  | _, _ => false

def agreeFields : List (String × Json) → List (String × Json) → Bool
  | [], [] => true
  | (m, x) :: xs, (n, y) :: ys => m == n && agrees x y && agreeFields xs ys
  | _, _ => false

end

def fields? : Json → Option Bag
  | object fields => some fields
  | _ => none

def text? : Json → Option String
  | string s => some s
  | _ => none

end Json

end Texture
