import Countersign.Json.Value
import Countersign.Binary64.Shortest
import Countersign.Text.Digits

set_option autoImplicit false

/-!
# Numerals

The text of a number. A numeral without fraction and exponent is a whole number
where it fits, and every other numeral is the nearest float. Minus zero is a float,
since no whole number has that sign. Floats are written with the fewest digits that
read back, and always with a point or an exponent, so no float reads as a whole number.

The nearest float is found exactly. A reader that multiplies floats by powers of ten can
be off in the last place, and can refuse a numeral next to the largest float.
-/

namespace Countersign.Json

/-- A numeral as it is written: the digits before the point, those behind it, and the
exponent. -/
structure Numeral where
  negative : Bool
  whole : List Char
  fraction : List Char
  exponent : Option Int
  deriving DecidableEq, Repr

namespace Numeral

/-- A row of digits off the front of a text; there must be one. -/
def digits (text : List Char) : Option (List Char × List Char) :=
  match text.takeWhile Char.isDigit with
  | [] => none
  | row => some (row, text.dropWhile Char.isDigit)

def scanWhole (text : List Char) : Option (List Char × List Char) :=
  match digits text with
  | some ('0' :: _ :: _, _) => none
  | other => other

def scanFraction : List Char → Option (List Char × List Char)
  | '.' :: rest => digits rest
  | rest => some ([], rest)

def scanSign : List Char → Bool × List Char
  | '-' :: rest => (true, rest)
  | '+' :: rest => (false, rest)
  | rest => (false, rest)

def scanPower (text : List Char) : Option (Option Int × List Char) :=
  let (negative, rest) := scanSign text
  match digits rest with
  | some (row, rest) =>
    let size : Int := Nat.ofDigitChars 10 row 0
    some (some (if negative then -size else size), rest)
  | none => none

def scanExponent : List Char → Option (Option Int × List Char)
  | 'e' :: rest => scanPower rest
  | 'E' :: rest => scanPower rest
  | rest => some (none, rest)

def scanUnsigned (negative : Bool) (text : List Char) : Option (Numeral × List Char) :=
  match scanWhole text with
  | none => none
  | some (whole, rest) =>
    match scanFraction rest with
    | none => none
    | some (fraction, rest) =>
      match scanExponent rest with
      | none => none
      | some (exponent, rest) => some (⟨negative, whole, fraction, exponent⟩, rest)

/-- A numeral off the front of a text, and what stands behind it. -/
def scan : List Char → Option (Numeral × List Char)
  | '-' :: rest => scanUnsigned true rest
  | text => scanUnsigned false text

def isWhole (n : Numeral) : Bool := n.fraction.isEmpty && n.exponent.isNone

/-- The decimal that the numeral denotes, its sign apart. -/
def decimal (n : Numeral) : Decimal :=
  ⟨Nat.ofDigitChars 10 (n.whole ++ n.fraction) 0,
    n.exponent.getD 0 - (n.fraction.length : Int)⟩

/-- The whole number that the numeral denotes, if it is written as one and fits. -/
def integer? (n : Numeral) : Option Integer :=
  if n.isWhole then
    let size := Nat.ofDigitChars 10 n.whole 0
    if n.negative then
      if size = 0 then none else Integer.ofInt? (-(size : Int))
    else Integer.ofInt? size
  else none

/-- The value of a numeral, none for a float beyond the format's range. -/
def value? (n : Numeral) : Option Json :=
  match n.integer? with
  | some i => some (.int i)
  | none => (Binary64.nearest? n.negative n.decimal).map .float

end Numeral

/-- Digits with the point at place `k`, so that the number is `0.d₁d₂… * 10 ^ k`. Points
are written from five places in front of the digits up to the sixteenth digit. -/
def layout (digits : List Char) (place : Int) : List Char :=
  let count : Int := digits.length
  if count ≤ place ∧ place ≤ 16 then
    digits ++ List.replicate (place - count).toNat '0' ++ ['.', '0']
  else if 0 < place ∧ place ≤ 16 then
    digits.take place.toNat ++ '.' :: digits.drop place.toNat
  else if -5 < place ∧ place ≤ 0 then
    '0' :: '.' :: (List.replicate (-place).toNat '0' ++ digits)
  else
    let power := (Digits.signed (place - 1)).toList
    match digits with
    | [single] => single :: 'e' :: power
    | first :: rest => first :: '.' :: rest ++ 'e' :: power
    | [] => 'e' :: power

def floatDigits (x : Binary64) : List Char :=
  if x.magnitude = 0 then ['0', '.', '0']
  else
    let d := x.shortest
    let row := Nat.toDigits 10 d.digits
    let digits := (row.reverse.dropWhile (· == '0')).reverse
    layout digits (row.length + d.exponent)

def floatText (x : Binary64) : List Char :=
  if x.negative then '-' :: floatDigits x else floatDigits x

def integerText (n : Integer) : List Char := (Digits.signed n.value).toList

end Countersign.Json
