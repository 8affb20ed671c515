set_option autoImplicit false

/-!
# 64-bit floating point

The finite numbers of the binary format with 53 bits of precision, and the one that
is nearest to a decimal. All arithmetic is on natural numbers, so a rounding is
exact: a quotient is rounded to the nearest whole number, a half to the even one.
-/

namespace Countersign

/-- A decimal `digits * 10 ^ exponent`. -/
structure Decimal where
  digits : Nat
  exponent : Int
  deriving DecidableEq, Repr

/-- A finite number of the format, kept as its sign and the bits of its magnitude.
Magnitudes are ordered as their bits are; from `0x7FF0000000000000` on they are infinite. -/
structure Binary64 where
  negative : Bool
  magnitude : Nat
  finite : magnitude < 0x7FF0000000000000
  deriving DecidableEq, Repr

namespace Binary64

/-- So many magnitudes share an exponent. -/
def mantissas : Nat := 0x10000000000000

/-- The magnitude as `m * 2 ^ q`. -/
def parts (magnitude : Nat) : Nat × Int :=
  let field : Nat := magnitude / mantissas
  let low : Nat := magnitude % mantissas
  if field = 0 then (low, -1074) else (mantissas + low, (field : Int) - 1075)

/-- A power with an exponent of either sign, as numerator and denominator. -/
def ratio (base : Nat) (exponent : Int) : Nat × Nat :=
  if exponent < 0 then (1, base.pow exponent.natAbs) else (base.pow exponent.natAbs, 1)

/-- The quotient rounded to the nearest whole number, a half to the even one. -/
def roundDiv (num den : Nat) : Nat :=
  let whole := num / den
  let twice := 2 * (num % den)
  if twice < den then whole
  else if den < twice then whole + 1
  else whole + whole % 2

/-- The largest `k` with `2 ^ k ≤ num / den`. -/
def log2Ratio (num den : Nat) : Int :=
  let guess : Int := (num.log2 : Int) - (den.log2 : Int)
  let (up, down) := ratio 2 guess
  if den * up ≤ num * down then guess else guess - 1

/-- The bits of the magnitude nearest to a quotient. The exponent field counts from the
smallest unit, so a mantissa that rounds up to the next power of two carries into it. -/
def nearestBits (num den : Nat) : Nat :=
  let unit := max (log2Ratio num den - 52) (-1074)
  let (up, down) := ratio 2 unit
  (unit + 1074).toNat * mantissas + roundDiv (num * down) (den * up)

/-- The number nearest to a decimal with a sign, none where that is infinite. Exponents
far out of the format's range are settled without raising ten to them. -/
def nearest? (negative : Bool) (d : Decimal) : Option Binary64 :=
  if d.digits = 0 then some ⟨negative, 0, by decide⟩
  else if 400 < d.exponent then none
  else if ((Nat.toDigits 10 d.digits).length : Int) + d.exponent < -400 then
    some ⟨negative, 0, by decide⟩
  else
    let (up, down) := ratio 10 d.exponent
    let bits := nearestBits (d.digits * up) down
    if finite : bits < 0x7FF0000000000000 then some ⟨negative, bits, finite⟩ else none

end Binary64

end Countersign
