import Countersign.Json.Value
import Countersign.Text.Hex

set_option autoImplicit false

/-!
# Outcomes

What a confirmation produced. A node answers with the hash of a transaction or with
the bytes of a signature, both as hexadecimal text; 32 bytes are a hash. Every other
answer is kept as it is.
-/

namespace Countersign

inductive Outcome where
  | transaction (hash : Hash)
  | signature (bytes : List UInt8)
  | other (value : Json)

namespace Outcome

def ofText (text : String) : Outcome :=
  match FixedBytes.ofHex 32 text with
  | .ok hash => .transaction hash
  | .error _ =>
    match Hex.decode text with
    | .ok bytes => .signature bytes
    | .error _ => .other (.str text)

def ofJson : Json → Outcome
  | .str text => ofText text
  | value => .other value

def hash? : Outcome → Option Hash
  | .transaction hash => some hash
  | _ => none

end Outcome

end Countersign
