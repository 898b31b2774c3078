/- Texture/Json/Printer
   digest: Values as stored texts with one item or field to a line. -/

import Texture.Color
import Texture.Json.Basic
import Texture.Number.Text

set_option autoImplicit false
set_option relaxedAutoImplicit false

namespace Texture.Json

def writeChar (c : Char) : List Char :=
  if c = '"' then ['\\', '"']
  else if c = '\\' then ['\\', '\\']
  else if c = '\n' then ['\\', 'n']
  else if c = '\r' then ['\\', 'r']
  else if c = '\t' then ['\\', 't']
  else if c.toNat = 8 then ['\\', 'b']
  else if c.toNat = 12 then ['\\', 'f']
  else if c.toNat < 32 then
    ['\\', 'u', '0', '0', Color.hexDigit (c.toNat / 16), Color.hexDigit (c.toNat % 16)]
  else [c]

def writeString (s : String) : String :=
  String.ofList ('"' :: (s.toList.flatMap writeChar ++ ['"']))

def writeNumeral : Numeral → String
  | .natural n => toString n
  | .negative n => "-" ++ toString n
  | .real x =>
    if Number.Binary.isFinite x then Number.floatText Number.FloatStyle.stored x else "null"

/-- A new line with two blanks for each level. -/
def newLine (level : Nat) : String := "\n" ++ String.ofList (List.replicate (2 * level) ' ')

mutual

def pretty (level : Nat) : Json → String
  | null => "null"
  | bool b => if b then "true" else "false"
  | number n => writeNumeral n
  | string s => writeString s
  | array [] => "[]"
  | array (x :: xs) =>
    "[" ++ newLine (level + 1) ++ pretty (level + 1) x ++ prettyItems (level + 1) xs
      ++ newLine level ++ "]"
  | object [] => "\x7b\x7d"
  | object ((name, x) :: rest) =>
    "\x7b" ++ newLine (level + 1) ++ writeString name ++ ": " ++ pretty (level + 1) x
      ++ prettyFields (level + 1) rest ++ newLine level ++ "\x7d"

def prettyItems (level : Nat) : List Json → String
  | [] => ""
  | x :: xs => "," ++ newLine level ++ pretty level x ++ prettyItems level xs

def prettyFields (level : Nat) : List (String × Json) → String
  | [] => ""
  | (name, x) :: rest =>
    "," ++ newLine level ++ writeString name ++ ": " ++ pretty level x ++ prettyFields level rest

end

end Texture.Json
