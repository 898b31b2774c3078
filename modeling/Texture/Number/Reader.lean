/- Texture/Number/Reader
   digest: Reading floats from decimal text, rounded correctly. -/

import Texture.Number.Binary

set_option autoImplicit false
set_option relaxedAutoImplicit false

namespace Texture.Number.Reader

def digitsValue (ds : List Char) : Nat :=
  ds.foldl (fun n c => 10 * n + (c.toNat - '0'.toNat)) 0

/-- The float nearest to `±digits · 10 ^ exponent`. Exponents far outside the range of floats are
settled by the number of digits. -/
def ofDecimal (negative : Bool) (digits : Nat) (exponent : Int) : Float :=
  if digits = 0 then Binary.nearest negative 0 0 false
  else
    let place := exponent + ((Nat.toDigits 10 digits).length : Int)
    if 400 < place then Binary.infinity negative
    else if place < -400 then Binary.nearest negative 0 0 false
    else if 0 ≤ exponent then Binary.nearest negative (digits * Nat.pow 10 exponent.toNat) 0 false
    else Binary.ofRatio negative digits (Nat.pow 10 (-exponent).toNat)

def splitSign : List Char → Bool × List Char
  | '-' :: cs => (true, cs)
  | '+' :: cs => (false, cs)
  | cs => (false, cs)

/-- An exponent part up to the end of the text; no exponent part is the exponent zero. -/
def exponentPart : List Char → Option Int
  | [] => some 0
  | c :: cs =>
    if c = 'e' ∨ c = 'E' then
      let (negative, ds) := splitSign cs
      if ds.isEmpty || !ds.all Char.isDigit then none
      else some (if negative then -(digitsValue ds : Int) else digitsValue ds)
    else none

/-- An unsigned decimal: digits with an optional point among or around them, and an exponent. -/
def decimalPart (negative : Bool) (cs : List Char) : Option Float :=
  let whole := cs.takeWhile Char.isDigit
  let rest := cs.dropWhile Char.isDigit
  let (fraction, rest) := match rest with
    | '.' :: rest => (rest.takeWhile Char.isDigit, rest.dropWhile Char.isDigit)
    | rest => ([], rest)
  if whole.isEmpty && fraction.isEmpty then none
  else
    (exponentPart rest).map fun exponent =>
      ofDecimal negative (digitsValue (whole ++ fraction)) (exponent - (fraction.length : Int))

/-- Reads a float: a sign, then `inf`, `infinity` or `nan` in any case, or a decimal. -/
def float? (cs : List Char) : Option Float :=
  let (negative, body) := splitSign cs
  let word := String.ofList (body.map Char.toLower)
  if word = "inf" ∨ word = "infinity" then some (Binary.infinity negative)
  else if word = "nan" then some Binary.notANumber
  else decimalPart negative body

end Texture.Number.Reader
