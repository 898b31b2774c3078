/- Texture/Json/Draft
   digest: Well-formed stored texts as trees whose numbers and strings may still be refused. -/

import Texture.Json.Refusal
import Texture.Json.Token

set_option autoImplicit false
set_option relaxedAutoImplicit false

namespace Texture.Json

/-- A scalar that was read, or the reason why it cannot be. -/
abbrev Scalar (α : Type) := Except Refusal α

/-- The tree of a well-formed text. All fields of an object are kept, also repeated ones. -/
inductive Draft where
  | null
  | bool (b : Bool)
  | number (n : Scalar Numeral)
  | string (s : Scalar String)
  | array (items : List Draft)
  | object (fields : List (Scalar String × Draft))

namespace Draft

def pairChar (high low : Nat) : Char :=
  Char.ofNat ((high - 0xd800) * 0x400 + (low - 0xdc00) + 0x10000)

/-- Joins the pieces of a string. A unit below the range of first halves or above it is a character
of its own; a first half needs a second half right behind it. -/
def join : List Piece → List Char → Scalar String
  | [], text => .ok (String.ofList text.reverse)
  | .char c :: rest, text => join rest (c :: text)
  | .unit high :: rest, text =>
    if 0xdc00 ≤ high ∧ high ≤ 0xdfff then .error .loneUnit
    else if 0xd800 ≤ high ∧ high ≤ 0xdbff then
      match rest with
      | .unit low :: rest =>
        if 0xdc00 ≤ low ∧ low ≤ 0xdfff then join rest (pairChar high low :: text)
        else .error .loneUnit
      | _ => .error .endOfUnits
    else join rest (Char.ofNat high :: text)

def scalarOfLexeme (l : Lexeme) : Scalar Numeral :=
  match l.numeral? with
  | some n => .ok n
  | none => .error .numberOutOfRange

/-- An array or object that is still open, its parts in reverse. -/
inductive Frame where
  | array (items : List Draft)
  | object (fields : List (Scalar String × Draft)) (key : Scalar String)

inductive Phase where
  | value
  /-- A value, or the end of an array without any. -/
  | firstItem
  | key
  /-- A key, or the end of an object without any. -/
  | firstKey
  | colon
  | separator
  | complete (d : Draft)

def place (d : Draft) : List Frame → List Frame × Phase
  | [] => ([], .complete d)
  | .array items :: stack => (.array (d :: items) :: stack, .separator)
  | .object fields key :: stack => (.object ((key, d) :: fields) key :: stack, .separator)

def startValue (stack : List Frame) : Token → Option (List Frame × Phase)
  | .null => some (place .null stack)
  | .bool b => some (place (.bool b) stack)
  | .number l => some (place (.number (scalarOfLexeme l)) stack)
  | .string ps => some (place (.string (join ps [])) stack)
  | .openArray => some (.array [] :: stack, .firstItem)
  | .openObject => some (.object [] (.ok "") :: stack, .firstKey)
  | _ => none

def startKey (ps : List Piece) : List Frame → Option (List Frame × Phase)
  | .object fields _ :: stack => some (.object fields (join ps []) :: stack, .colon)
  | _ => none

def close (t : Token) : List Frame → Option (List Frame × Phase)
  | .array items :: stack =>
    match t with
    | .closeArray => some (place (.array items.reverse) stack)
    | _ => none
  | .object fields _ :: stack =>
    match t with
    | .closeObject => some (place (.object fields.reverse) stack)
    | _ => none
  | [] => none

def comma : List Frame → Option (List Frame × Phase)
  | .array items :: stack => some (.array items :: stack, .value)
  | .object fields key :: stack => some (.object fields key :: stack, .key)
  | [] => none

def step (state : List Frame × Phase) (t : Token) : Option (List Frame × Phase) :=
  let (stack, phase) := state
  match phase, t with
  | .value, t => startValue stack t
  | .firstItem, .closeArray => close .closeArray stack
  | .firstItem, t => startValue stack t
  | .key, .string ps => startKey ps stack
  | .firstKey, .string ps => startKey ps stack
  | .firstKey, .closeObject => close .closeObject stack
  | .colon, .colon => some (stack, .value)
  | .separator, .comma => comma stack
  | .separator, t => close t stack
  | _, _ => none

def ofTokens? (tokens : List Token) : Option Draft := do
  match ← tokens.foldlM step ([], .value) with
  | (_, .complete d) => some d
  | _ => none

def ofText? (text : String) : Option Draft := (Token.ofText? text).bind ofTokens?

mutual

def ofJson : Json → Draft
  | .null => .null
  | .bool b => .bool b
  | .number n => .number (.ok n)
  | .string s => .string (.ok s)
  | .array items => .array (ofItems items)
  | .object fields => .object (ofFields fields)

def ofItems : List Json → List Draft
  | [] => []
  | x :: xs => ofJson x :: ofItems xs

def ofFields : List (String × Json) → List (Scalar String × Draft)
  | [] => []
  | (name, x) :: xs => (.ok name, ofJson x) :: ofFields xs

end

end Draft

end Texture.Json
