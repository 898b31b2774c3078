/- Texture/Number/Root
   digest: Whole square roots and the length of a plane vector. -/

import Texture.Number.Binary

set_option autoImplicit false
set_option relaxedAutoImplicit false

namespace Texture.Number.Root

/-- Newton's iteration from above, which falls until it meets the root. -/
def descend (n : Nat) : Nat → Nat → Nat
  | 0, x => x
  | fuel + 1, x =>
    let y := (x + n / x) / 2
    if y < x then descend n fuel y else x

/-- The largest whole number whose square does not exceed the given one. -/
def whole (n : Nat) : Nat :=
  if n = 0 then 0 else descend n (n.log2 + 2) (Nat.pow 2 (n.log2 / 2 + 1))

/-- The length of the vector `(x, y)`, correctly rounded. An infinite coordinate makes an infinite
length whatever the other one is. -/
def hypotenuse (x y : Float) : Float :=
  match Binary.ofFloat x, Binary.ofFloat y with
  | .infinite _, _ => Binary.infinity false
  | _, .infinite _ => Binary.infinity false
  | .finite _ m e, .finite _ n f =>
    let low := min e f
    let a := m * Nat.pow 2 (e - low).toNat
    let b := n * Nat.pow 2 (f - low).toNat
    let square := a * a + b * b
    let lift := 66 - square.log2 / 2
    let scaled := square * Nat.pow 4 lift
    let root := whole scaled
    Binary.nearest false root (low - (lift : Int)) (root * root != scaled)
  | _, _ => Binary.notANumber

end Texture.Number.Root
