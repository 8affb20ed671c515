import Countersign.Text.Digits
import Countersign.Text.Utf8

set_option autoImplicit false

/-!
# Hexadecimal bytes

Bytes written as two digits each behind the marker `0x`. Reading looks at the bytes
of the text: it first asks for an even number of them, then takes off one marker
if there is one, then, where the size is fixed, asks for that size, and last reads
the digits from the left.
-/

namespace Countersign

namespace Hex

inductive Error where
  | oddLength
  | wrongLength
  /-- The first byte that is no digit, with its place behind the marker. -/
  | badDigit (byte : UInt8) (position : Nat)
  deriving DecidableEq, Repr

def digitsOf (byte : UInt8) : List Char :=
  [Nat.digitChar (byte.toNat / 16), Nat.digitChar (byte.toNat % 16)]

def encode (bytes : List UInt8) : String :=
  "0x" ++ String.ofList (bytes.flatMap digitsOf)

def digit? (byte : UInt8) : Option Nat :=
  Digits.value? (Char.ofNat byte.toNat)

/-- Takes off one marker; `0X` is none. -/
def unmark : List UInt8 → List UInt8
  | 0x30 :: 0x78 :: rest => rest
  | bytes => bytes

def pairs (position : Nat) : List UInt8 → Except Error (List UInt8)
  | [] => .ok []
  | [_] => .error .oddLength
  | a :: b :: rest =>
    match digit? a, digit? b with
    | none, _ => .error (.badDigit a position)
    | some _, none => .error (.badDigit b (position + 1))
    | some high, some low =>
      match pairs (position + 2) rest with
      | .ok bytes => .ok (UInt8.ofNat (high * 16 + low) :: bytes)
      | .error e => .error e

theorem length_of_pairs {position : Nat} {digits bytes : List UInt8}
    (h : pairs position digits = .ok bytes) : digits.length = 2 * bytes.length := by
  fun_induction pairs position digits generalizing bytes with
  | case1 => simp_all
  | case2 => simp at h
  | case3 => simp at h
  | case4 => simp at h
  | case5 position a b rest high low _ _ tail ok ih =>
    simp only [Except.ok.injEq] at h
    subst h
    simp [ih ok]
    omega
  | case6 => simp at h

def decode (text : String) : Except Error (List UInt8) :=
  let bytes := Utf8.encode text
  if bytes.length % 2 = 1 then .error .oddLength else pairs 0 (unmark bytes)

/-- One byte shown as the character of that code point, in quotes. -/
def quoted (byte : UInt8) : String :=
  let shown :=
    match byte.toNat with
    | 0 => "\\0"
    | 9 => "\\t"
    | 10 => "\\n"
    | 13 => "\\r"
    | 39 => "\\'"
    | 92 => "\\\\"
    | n =>
      if n < 0x20 ∨ (0x7F ≤ n ∧ n ≤ 0xA0) ∨ n = 0xAD then
        "\\u\x7b" ++ Digits.hex n ++ "\x7d"
      else String.singleton (Char.ofNat n)
  "'" ++ shown ++ "'"

def Error.message : Error → String
  | .oddLength => "odd number of digits"
  | .wrongLength => "invalid string length"
  | .badDigit byte position =>
    "invalid character " ++ quoted byte ++ " at position " ++ Digits.decimal position

end Hex

/-- Bytes of a fixed number. -/
structure FixedBytes (size : Nat) where
  bytes : List UInt8
  length_eq : bytes.length = size
  deriving DecidableEq

/-- The hash of a transaction. -/
abbrev Hash := FixedBytes 32

/-- The address of an account. -/
abbrev Address := FixedBytes 20

instance : Ord Hash := ⟨compareOn FixedBytes.bytes⟩

instance : Std.TransOrd Hash :=
  inferInstanceAs (Std.TransCmp (compareOn FixedBytes.bytes))

instance : Std.LawfulEqOrd Hash where
  eq_of_compare {a b} h := by
    have same : a.bytes = b.bytes :=
      Std.LawfulEqOrd.eq_of_compare (h : compare a.bytes b.bytes = .eq)
    cases a
    cases b
    simp_all

namespace FixedBytes

def hex {size : Nat} (fixed : FixedBytes size) : String := Hex.encode fixed.bytes

def ofHex (size : Nat) (text : String) : Except Hex.Error (FixedBytes size) :=
  let bytes := Utf8.encode text
  if bytes.length % 2 = 1 then .error .oddLength
  else
    let digits := Hex.unmark bytes
    if fits : digits.length = 2 * size then
      match read : Hex.pairs 0 digits with
      | .ok bytes => .ok ⟨bytes, by have := Hex.length_of_pairs read; omega⟩
      | .error e => .error e
    else .error .wrongLength

end FixedBytes

end Countersign
