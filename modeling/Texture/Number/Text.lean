/- Texture/Number/Text
   digest: Floats as text: the shortest digits laid out with or without an exponent. -/

import Texture.Number.Shortest

set_option autoImplicit false
set_option relaxedAutoImplicit false

namespace Texture.Number

/-- How the digits of a float are laid out. -/
structure FloatStyle where
  /-- Whether a number whose leading digit has this place is written without an exponent. -/
  positional : Int → Bool
  /-- Whether a whole number ends in `.0`. -/
  pointZero : Bool
  /-- Whether an exponent that is not negative carries a plus sign. -/
  plusSign : Bool
  /-- Which of two equally short and equally near decimals is taken. -/
  tie : Tie

namespace FloatStyle

/-- Never an exponent and no `.0`. -/
def plain : FloatStyle := ⟨fun _ => true, false, false, .up⟩

def stored : FloatStyle := ⟨fun place => decide (-5 ≤ place ∧ place ≤ 15), true, true, .even⟩

def listed : FloatStyle := ⟨fun place => decide (-4 ≤ place ∧ place ≤ 15), true, false, .up⟩

end FloatStyle

namespace Text

def digitsOf (n : Nat) : List Char := Nat.toDigits 10 n

def zeros (n : Nat) : List Char := List.replicate n '0'

def positional (style : FloatStyle) (d : Decimal) : List Char :=
  let ds := digitsOf d.digits
  if 0 ≤ d.exponent then
    ds ++ zeros d.exponent.toNat ++ (if style.pointZero then ['.', '0'] else [])
  else
    let point := (ds.length : Int) + d.exponent
    if 0 < point then ds.take point.toNat ++ '.' :: ds.drop point.toNat
    else '0' :: '.' :: (zeros (-point).toNat ++ ds)

/-- A decimal with its leading digit before the point and the place of that digit as exponent. -/
def scientific (style : FloatStyle) (d : Decimal) (place : Int) : List Char :=
  let mantissa := match digitsOf d.digits with
    | [] => []
    | [c] => [c]
    | c :: cs => c :: '.' :: cs
  let sign := if place < 0 then ['-'] else if style.plusSign then ['+'] else []
  mantissa ++ 'e' :: (sign ++ digitsOf place.natAbs)

def magnitude (style : FloatStyle) (significand : Nat) (exponent : Int) : List Char :=
  if significand = 0 then positional style ⟨0, 0⟩
  else
    let d := Shortest.ofMagnitude style.tie significand exponent
    let place := d.exponent + ((digitsOf d.digits).length : Int) - 1
    if style.positional place then positional style d else scientific style d place

end Text

def floatText (style : FloatStyle) (x : Float) : String :=
  match Binary.ofFloat x with
  | .nan => "NaN"
  | .infinite negative => if negative then "-inf" else "inf"
  | .finite negative significand exponent =>
    let body := Text.magnitude style significand exponent
    String.ofList (if negative then '-' :: body else body)

end Texture.Number
