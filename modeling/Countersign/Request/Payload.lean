import Countersign.Request.Failure

set_option autoImplicit false

/-!
# Payloads

What a request asks to be confirmed. The kind is told by the first of four members that
the payload has; a payload with none of them is kept as it is.
-/

namespace Countersign

inductive Payload where
  | sendTransaction (transaction : Json)
  | signTransaction (transaction : Json)
  | sign (address : Address) (data : List UInt8)
  | decrypt (address : Address) (message : List UInt8)
  | other (value : Json)

namespace Payload

def kind : Payload → String
  | .sendTransaction _ => "sendTransaction"
  | .signTransaction _ => "signTransaction"
  | .sign _ _ => "sign"
  | .decrypt _ _ => "decrypt"
  | .other _ => "other"

/-- A member that holds bytes as hexadecimal text. -/
def bytesField {α : Type} (read : String → Except Hex.Error α) (name : String) (value : Json) :
    Except Malformed α :=
  match (value.get? name).bind Json.asString? with
  | none => .error (.missingField name)
  | some text =>
    match read text with
    | .ok bytes => .ok bytes
    | .error e => .error (.badField name e)

/-- An address and the bytes that go with it, the address being looked at first. -/
def addressed (make : Address → List UInt8 → Payload) (name : String) (value : Json) :
    Except Malformed Payload := do
  let address ← bytesField (FixedBytes.ofHex 20) "address" value
  let bytes ← bytesField Hex.decode name value
  return make address bytes

def ofJson (value : Json) : Except Malformed Payload :=
  match value.get? "sendTransaction" with
  | some transaction => .ok (.sendTransaction transaction)
  | none =>
    match value.get? "signTransaction" with
    | some transaction => .ok (.signTransaction transaction)
    | none =>
      match value.get? "sign" with
      | some body => addressed .sign "data" body
      | none =>
        match value.get? "decrypt" with
        | some body => addressed .decrypt "msg" body
        | none => .ok (.other value)

end Payload

end Countersign
