import Countersign.Request.Payload

set_option autoImplicit false

/-!
# Requests

A request that waits at the node for its owner's decision, and how the node lists it.
-/

namespace Countersign

structure Request where
  id : RequestId
  origin : Json
  payload : Payload
  status : Status

namespace Request

/-- Reads an entry of the node's list. Both members are asked for before either is read,
and a request that is listed is pending. -/
def ofJson (value : Json) : Except Malformed Request :=
  match value.get? "id", value.get? "payload" with
  | none, _ => .error .missingId
  | some _, none => .error .missingPayload
  | some id, some payload => do
    let id ← RequestId.ofJson id
    let payload ← Payload.ofJson payload
    return ⟨id, (value.get? "origin").getD .null, payload, .pending⟩

/-- Reads the whole list; the first entry that is malformed fails it. -/
def listOfJson : List Json → Except Malformed (List Request)
  | [] => .ok []
  | entry :: rest => do
    let request ← ofJson entry
    let requests ← listOfJson rest
    return request :: requests

end Request

end Countersign
