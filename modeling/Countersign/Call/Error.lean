import Countersign.Duration
import Countersign.Rpc.Error

set_option autoImplicit false

/-!
# Calls and what becomes of them

A call names a method and its parameters. It is answered with a value, or it fails: on
the way to the node, at the node, or because nobody waits for it any longer.
-/

namespace Countersign

structure Call where
  method : String
  params : List Json

inductive CallError where
  /-- An HTTP status other than 200. -/
  | http (status : Nat) (reason : String)
  /-- The node answered with an error object. -/
  | rpc (error : Rpc.Error)
  | connectionClosed
  | connection (detail : String)
  | timeout (limit : Duration)
  | cancelled
  | encode (detail : String)
  | decode (detail : String)

/-- What a call comes back with. -/
abbrev Reply := Except CallError Json

namespace CallError

def message : CallError → String
  | .http status reason => Digits.decimal status ++ ": " ++ reason
  | .rpc error => error.text
  | .connectionClosed => "connection closed before the call resolved"
  | .connection detail => "connection error: " ++ detail
  | .timeout limit => "call timed out after " ++ limit.text
  | .cancelled => "call cancelled"
  | .encode detail => "encode error: " ++ detail
  | .decode detail => "decode error: " ++ detail

/-- The answer is no JSON text. -/
def notJson : CallError := .decode "invalid json-rpc response"

/-- The answer is a JSON text of something else than an object. -/
def notObject : CallError := .decode "json-rpc response must be an object"

/-- The answer has an error member that is no error object. -/
def badErrorObject : CallError := .decode "invalid error object"

/-- The result is not of the kind that the caller asked for. -/
def badResult (method : String) : CallError := .decode (method ++ " result")

end CallError

end Countersign
