import Countersign.Json.Value
import Countersign.Text.Digits

set_option autoImplicit false

/-!
# Quantities

An unsigned 64-bit number, given as a JSON number or as text. Text behind `0x` or `0X`
is hexadecimal and all other text decimal; one plus sign may stand in front of the
digits.
-/

namespace Countersign.Quantity

/-- Takes off one plus sign. -/
def unsign : List Char → List Char
  | '+' :: rest => rest
  | text => text

def ofDigits? (base : Nat) (text : List Char) : Option Nat :=
  (Digits.read? base (unsign text)).filter (· < UInt64.size)

/-- The base that a text is written in, and its digits. -/
def split : List Char → Nat × List Char
  | '0' :: 'x' :: rest => (16, rest)
  | '0' :: 'X' :: rest => (16, rest)
  | text => (10, text)

def ofText? (text : String) : Option UInt64 :=
  let (base, digits) := split text.toList
  (ofDigits? base digits).map UInt64.ofNat

def ofJson? : Json → Option UInt64
  | .int n => n.toUInt64?
  | .str text => ofText? text
  | _ => none

end Countersign.Quantity
