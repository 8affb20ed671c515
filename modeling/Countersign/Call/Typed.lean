import Countersign.Call.Error
import Countersign.Json.Reading

set_option autoImplicit false

/-!
# Typed calls

A call whose result is wanted as something else than a JSON value.
-/

namespace Countersign

namespace Call

/-- Reads the result of a call; a result of another kind is an error of the call. -/
def typed {α : Type} (call : Call) (read? : Json → Option α) : Reply → Except CallError α
  | .error e => .error e
  | .ok value =>
    match read? value with
    | some a => .ok a
    | none => .error (.badResult call.method)

end Call

end Countersign
