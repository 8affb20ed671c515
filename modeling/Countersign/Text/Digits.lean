set_option autoImplicit false

/-!
# Digits

Digits of a base up to sixteen, and the number a row of digits denotes.
Writing is `Nat.toDigits`. Reading refuses an empty row and every character that
is not a digit of the base, so a number has many spellings only through leading
zeros and the case of letters.
-/

namespace Countersign.Digits

/-- What a digit stands for; letters stand for ten to fifteen in either case. -/
def value? (c : Char) : Option Nat :=
  if '0' ≤ c ∧ c ≤ '9' then some (c.toNat - '0'.toNat)
  else if 'a' ≤ c ∧ c ≤ 'f' then some (c.toNat - 'a'.toNat + 10)
  else if 'A' ≤ c ∧ c ≤ 'F' then some (c.toNat - 'A'.toNat + 10)
  else none

def valueIn? (base : Nat) (c : Char) : Option Nat :=
  (value? c).filter (· < base)

/-- Reads on from the number that the digits so far denote. -/
def readFrom? (base : Nat) : Nat → List Char → Option Nat
  | sofar, [] => some sofar
  | sofar, c :: rest =>
    match valueIn? base c with
    | some digit => readFrom? base (sofar * base + digit) rest
    | none => none

def read? (base : Nat) : List Char → Option Nat
  | [] => none
  | digits => readFrom? base 0 digits

/-- Hexadecimal in lower case, without leading zeros. -/
def hex (n : Nat) : String := String.ofList (Nat.toDigits 16 n)

def decimal (n : Nat) : String := String.ofList (Nat.toDigits 10 n)

/-- Decimal with a minus sign in front of what is below zero. -/
def signed (n : Int) : String :=
  if n < 0 then "-" ++ decimal n.natAbs else decimal n.natAbs

end Countersign.Digits
