import Countersign.Text.Digits

set_option autoImplicit false

/-!
# String literals

A string literal is a row of parts: a character, written as itself or by a short
escape, or a 16-bit unit written as `\u` and four digits. Units make characters alone
or, as surrogates, in pairs; a surrogate without its partner makes none.
-/

namespace Countersign.Json

inductive Part where
  | char (c : Char)
  | unit (u : Nat)
  deriving DecidableEq, Repr

namespace Part

/-- The character behind the backslash of a short escape. -/
def short? : Char → Option Char
  | '"' => some '"'
  | '\\' => some '\\'
  | '/' => some '/'
  | 'b' => some '\x08'
  | 'f' => some '\x0C'
  | 'n' => some '\n'
  | 'r' => some '\r'
  | 't' => some '\t'
  | _ => none

/-- The parts up to the closing quote, and what stands behind it. -/
def scan : List Char → Option (List Part × List Char)
  | [] => none
  | '"' :: rest => some ([], rest)
  | '\\' :: 'u' :: a :: b :: c :: d :: rest =>
    match Digits.read? 16 [a, b, c, d], scan rest with
    | some u, some (parts, rest) => some (.unit u :: parts, rest)
    | _, _ => none
  | '\\' :: c :: rest =>
    match short? c, scan rest with
    | some c, some (parts, rest) => some (.char c :: parts, rest)
    | _, _ => none
  | c :: rest =>
    if c = '\\' ∨ c < ' ' then none
    else match scan rest with
      | some (parts, rest) => some (.char c :: parts, rest)
      | none => none

def isHigh (u : Nat) : Bool := 0xD800 ≤ u && u < 0xDC00

def isLow (u : Nat) : Bool := 0xDC00 ≤ u && u < 0xE000

/-- The characters that the parts make, none where a surrogate stands alone. -/
def chars? : List Part → Option (List Char)
  | [] => some []
  | .char c :: rest => (chars? rest).map (c :: ·)
  | .unit high :: .unit low :: rest =>
    if isHigh high then
      if isLow low then
        (chars? rest).map (Char.ofNat (0x10000 + (high - 0xD800) * 0x400 + (low - 0xDC00)) :: ·)
      else none
    else if isLow high then none
    else (chars? (.unit low :: rest)).map (Char.ofNat high :: ·)
  | .unit u :: rest =>
    if isHigh u || isLow u then none else (chars? rest).map (Char.ofNat u :: ·)

def text? (parts : List Part) : Option String :=
  (chars? parts).map String.ofList

end Part

/-- How a character is written inside a literal: only the quote, the backslash and what
lies below the space are escaped. -/
def escape (c : Char) : List Char :=
  if c = '"' then ['\\', '"']
  else if c = '\\' then ['\\', '\\']
  else if c = '\x08' then ['\\', 'b']
  else if c = '\x0C' then ['\\', 'f']
  else if c = '\n' then ['\\', 'n']
  else if c = '\r' then ['\\', 'r']
  else if c = '\t' then ['\\', 't']
  else if c < ' ' then
    ['\\', 'u', '0', '0', Nat.digitChar (c.toNat / 16), Nat.digitChar (c.toNat % 16)]
  else [c]

def quote (text : String) : List Char :=
  '"' :: text.toList.flatMap escape ++ ['"']

end Countersign.Json
