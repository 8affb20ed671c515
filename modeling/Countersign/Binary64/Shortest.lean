import Countersign.Binary64.Basic

set_option autoImplicit false

/-!
# Shortest decimals

The decimal with the fewest digits that reads back as a given number; among those of
that length the one nearest to it. A grid of decimals with so many digits has a point
that reads back only if one of the two neighbours of the number on the grid does, so
no other point is looked at.
-/

namespace Countersign.Binary64

/-- The place `k` of the decimal point: the quotient lies from `10 ^ (k - 1)` on and
below `10 ^ k`. -/
def pointPlace (num den : Nat) : Int :=
  if den ≤ num then ((Nat.toDigits 10 (num / den)).length : Int)
  else
    let t := (Nat.toDigits 10 (den / num)).length
    if num * Nat.pow 10 (t - 1) = den then 2 - (t : Int) else 1 - (t : Int)

/-- The neighbours of a quotient on the grid of unit `10 ^ exponent`, the nearer first,
and of two that are as near the even one. -/
def neighbours (num den : Nat) (exponent : Int) : List Decimal :=
  let (up, down) := ratio 10 exponent
  let scaled := num * down
  let unit := den * up
  let below := scaled / unit
  let near := roundDiv scaled unit
  let far := if near = below then below + 1 else below
  [⟨near, exponent⟩, ⟨far, exponent⟩]

/-- The first decimal that reads back, on grids of `count` digits and more. -/
def shortestFrom (x : Binary64) (num den : Nat) (place : Int) : (count left : Nat) → Decimal
  | _, 0 => ⟨0, 0⟩
  | count, left + 1 =>
    match (neighbours num den (place - count)).find? (nearest? x.negative · == some x) with
    | some found => found
    | none => shortestFrom x num den place (count + 1) left

/-- The shortest decimal of a magnitude above zero. Seventeen digits are always enough. -/
def shortest (x : Binary64) : Decimal :=
  let (mantissa, exponent) := parts x.magnitude
  let (up, down) := ratio 2 exponent
  let num := mantissa * up
  shortestFrom x num down (pointPlace num down) 1 17

end Countersign.Binary64
