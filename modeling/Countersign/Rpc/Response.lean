import Countersign.Call.Error

set_option autoImplicit false

/-!
# Responses

An object with the id of a call, if it has a numeric one, and a result or an error. An
error member that is there and not null wins; otherwise the result counts, and one that
is missing is null.
-/

namespace Countersign.Rpc

structure Response where
  id : Option UInt64
  outcome : Except Error Json

namespace Response

def ofMembers (members : List (String × Json)) : Except CallError Response :=
  let id := (members.lookup "id").bind Json.asUInt64?
  match (members.lookup "error").getD .null with
  | .null => .ok ⟨id, .ok ((members.lookup "result").getD .null)⟩
  | error =>
    match Error.ofJson? error with
    | some error => .ok ⟨id, .error error⟩
    | none => .error .badErrorObject

def ofJson : Json → Except CallError Response
  | .obj members => ofMembers members
  | _ => .error .notObject

def decode (text : String) : Except CallError Response :=
  match Json.parse? text with
  | some value => ofJson value
  | none => .error .notJson

/-- What the call that is answered comes back with. -/
def reply (r : Response) : Reply :=
  match r.outcome with
  | .ok value => .ok value
  | .error error => .error (.rpc error)

end Response

/-- What a call comes back with when its answer is this text, whatever its id. -/
def replyOf (text : String) : Reply :=
  match Response.decode text with
  | .ok response => response.reply
  | .error e => .error e

end Countersign.Rpc
