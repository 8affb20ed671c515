set_option autoImplicit false

/-!
# UTF-8

Text as the bytes of its UTF-8 encoding, and bytes read back as text. The strict
reading refuses ill-formed bytes. The lossy reading puts U+FFFD in the place of
each longest run of bytes that starts a character and is not continued to one.
-/

namespace Countersign.Utf8

def encode (text : String) : List UInt8 :=
  text.toList.flatMap String.utf8EncodeChar

/-- The bytes still owed after a leading byte, and the range of the next one. -/
structure Owed where
  count : Nat
  low : UInt8
  high : UInt8

/-- What a leading byte above 0x7F announces; the narrowed ranges keep out overlong
forms, surrogates and what lies beyond U+10FFFF. -/
def Owed.ofLead? (b : UInt8) : Option Owed :=
  if 0xC2 ≤ b ∧ b ≤ 0xDF then some ⟨1, 0x80, 0xBF⟩
  else if b = 0xE0 then some ⟨2, 0xA0, 0xBF⟩
  else if b = 0xED then some ⟨2, 0x80, 0x9F⟩
  else if 0xE1 ≤ b ∧ b ≤ 0xEF then some ⟨2, 0x80, 0xBF⟩
  else if b = 0xF0 then some ⟨3, 0x90, 0xBF⟩
  else if 0xF1 ≤ b ∧ b ≤ 0xF3 then some ⟨3, 0x80, 0xBF⟩
  else if b = 0xF4 then some ⟨3, 0x80, 0x8F⟩
  else none

/-- The bits of a leading byte that belong to the code point: five if one byte is owed,
and one less for each more. -/
def leadBits (b : UInt8) (owed : Nat) : Nat :=
  b.toNat % (64 >>> owed)

/-- Where a reading stands: between characters, or inside one whose bits so far are
`bits`. -/
inductive State where
  | between
  | inside (bits : Nat) (owed : Owed)

/-- The characters that a byte completes, and the state after it. An ill-formed start
is given up as U+FFFD, and the byte that broke it off is looked at afresh. -/
def step : State → UInt8 → List (Option Char) × State
  | .between, b => start b
  | .inside bits owed, b =>
    if owed.low ≤ b ∧ b ≤ owed.high then
      let bits := bits * 64 + b.toNat % 64
      match owed.count with
      | 0 | 1 => ([some (Char.ofNat bits)], .between)
      | n + 2 => ([], .inside bits ⟨n + 1, 0x80, 0xBF⟩)
    else
      let (chars, state) := start b
      (none :: chars, state)
where
  start (b : UInt8) : List (Option Char) × State :=
    if b < 0x80 then ([some (Char.ofNat b.toNat)], .between)
    else match Owed.ofLead? b with
      | some owed => ([], .inside (leadBits b owed.count) owed)
      | none => ([none], .between)

/-- The characters of a row of bytes, `none` for each ill-formed part. -/
def units : State → List UInt8 → List (Option Char)
  | .between, [] => []
  | .inside _ _, [] => [none]
  | state, b :: rest =>
    let (chars, state) := step state b
    chars ++ units state rest

def decodeLossy (bytes : List UInt8) : String :=
  String.ofList ((units .between bytes).map fun c => c.getD '\uFFFD')

/-- The text that the bytes encode, if they encode one. -/
def decode? (bytes : List UInt8) : Option String :=
  ((units .between bytes).mapM id).map String.ofList

end Countersign.Utf8
