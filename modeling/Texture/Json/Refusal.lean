/- Texture/Json/Refusal
   digest: The reasons why a well-formed stored text is refused, and their wording. -/

import Texture.Number.Text
import Texture.Text.Quoted

set_option autoImplicit false
set_option relaxedAutoImplicit false

namespace Texture.Json

inductive Found where
  | null
  | bool (b : Bool)
  | natural (n : Nat)
  | negative (n : Nat)
  | real (x : Float)
  | string (s : String)
  | sequence
  | map

def Found.describe : Found → String
  | null => "null"
  | bool b => if b then "boolean `true`" else "boolean `false`"
  | natural n => "integer `" ++ toString n ++ "`"
  | negative n => "integer `-" ++ toString n ++ "`"
  | real x => "floating point `" ++ Number.floatText Number.FloatStyle.stored x ++ "`"
  | string s => "string " ++ Text.Quoted.quote s
  | sequence => "sequence"
  | map => "map"

inductive Refusal where
  /-- A number lies beyond all floats. -/
  | numberOutOfRange
  /-- The second half of a pair of units is missing or stands alone. -/
  | loneUnit
  /-- The first half of a pair of units is not followed by an escape. -/
  | endOfUnits
  | tooDeep
  | wrongType (found : Found) (expected : String)
  | wrongValue (found : Found) (expected : String)
  | wrongLength (length : Nat) (expected : String)
  | missing (field : String)
  | repeated (field : String)
  /-- A sequence goes on behind its last field. -/
  | trailing
  | noValue
  /-- A value of the right type that a rule of the domain refuses. -/
  | unfit (text : String)

def Refusal.message : Refusal → String
  | numberOutOfRange => "number out of range"
  | loneUnit => "lone leading surrogate in hex escape"
  | endOfUnits => "unexpected end of hex escape"
  | tooDeep => "recursion limit exceeded"
  | wrongType found expected => "invalid type: " ++ found.describe ++ ", expected " ++ expected
  | wrongValue found expected => "invalid value: " ++ found.describe ++ ", expected " ++ expected
  | wrongLength length expected =>
    "invalid length " ++ toString length ++ ", expected " ++ expected
  | missing field => "missing field `" ++ field ++ "`"
  | repeated field => "duplicate field `" ++ field ++ "`"
  | trailing => "trailing characters"
  | noValue => "expected value"
  | unfit text => text

end Texture.Json
