import Countersign.Call.Error
import Countersign.Request.Status

set_option autoImplicit false

/-!
# Failures

Why an operation on requests does not succeed: its call failed, the node's answer is
malformed, or the request is not in the state that the operation asks for.
-/

namespace Countersign

/-- What is wrong with an answer of the node. -/
inductive Malformed where
  | badId (value : Json)
  | missingId
  | missingPayload
  | missingField (name : String)
  | badField (name : String) (error : Hex.Error)
  | notArray (method : String)
  | notObject (method : String)

inductive Failure where
  | call (error : CallError)
  | illegalTransition (source : Phase) (action : Action)
  | notFound (id : RequestId)
  | alreadySettled (id : RequestId) (phase : Phase)
  | rejectRefused (id : RequestId)
  | malformed (what : Malformed)

namespace Malformed

def message : Malformed → String
  | .badId value => "invalid signer request id: " ++ value.compact
  | .missingId => "signer request missing id"
  | .missingPayload => "signer request missing payload"
  | .missingField name => "missing " ++ name
  | .badField name error => "invalid " ++ name ++ ": " ++ error.message
  | .notArray method => method ++ " must return an array"
  | .notObject method => method ++ " must return an object"

end Malformed

namespace Failure

def message : Failure → String
  | .call error => error.message
  | .illegalTransition source action =>
    "illegal signer transition: " ++ source.name ++ " -> " ++ action.name
  | .notFound id => "signer request not found: " ++ id.text
  | .alreadySettled id phase => "signer request already " ++ phase.name ++ ": " ++ id.text
  | .rejectRefused id => "node refused to reject signer request " ++ id.text
  | .malformed what => "decode error: " ++ what.message

end Failure

/-- The status after an action, or the failure that a settled status gives. -/
def Status.after (id : RequestId) (action : Action) (status : Status) :
    Except Failure (Status × Transition) :=
  match status.after? id action with
  | some result => .ok result
  | none => .error (.illegalTransition status.phase action)

def RequestId.ofJson (value : Json) : Except Malformed RequestId :=
  match RequestId.ofJson? value with
  | some id => .ok id
  | none => .error (.badId value)

end Countersign
