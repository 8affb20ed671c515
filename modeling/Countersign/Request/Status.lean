import Countersign.Request.Id
import Countersign.Request.Outcome

set_option autoImplicit false

/-!
# The life of a request

A request is pending until it is confirmed or rejected, and then settled for good. A
confirmation that failed leaves it pending, so it can be tried again. Each change, that
one too, is recorded as a transition.
-/

namespace Countersign

/-- A status without what the confirmation produced. -/
inductive Phase where
  | pending
  | confirmed
  | rejected
  deriving DecidableEq, Repr

inductive Status where
  | pending
  | confirmed (outcome : Outcome)
  | rejected

inductive Action where
  | confirm (outcome : Outcome)
  | confirmFailed
  | reject

inductive Reason where
  | confirmed
  | confirmFailed
  | rejected
  deriving DecidableEq, Repr

structure Transition where
  id : RequestId
  source : Phase
  target : Phase
  reason : Reason
  deriving DecidableEq

namespace Phase

def name : Phase → String
  | .pending => "Pending"
  | .confirmed => "Confirmed"
  | .rejected => "Rejected"

end Phase

namespace Action

def name : Action → String
  | .confirm _ => "confirm"
  | .confirmFailed => "confirm_failed"
  | .reject => "reject"

end Action

namespace Reason

def text : Reason → String
  | .confirmed => "confirmed by signer"
  | .confirmFailed => "confirm attempt failed"
  | .rejected => "rejected by signer"

end Reason

namespace Status

def phase : Status → Phase
  | .pending => .pending
  | .confirmed _ => .confirmed
  | .rejected => .rejected

def isSettled : Status → Bool
  | .pending => false
  | _ => true

def outcome? : Status → Option Outcome
  | .confirmed outcome => some outcome
  | _ => none

/-- What an action makes of a pending status. -/
def next : Action → Status × Reason
  | .confirm outcome => (.confirmed outcome, .confirmed)
  | .confirmFailed => (.pending, .confirmFailed)
  | .reject => (.rejected, .rejected)

/-- The status after an action and the record of the change; a settled status takes none. -/
def after? (id : RequestId) (action : Action) : Status → Option (Status × Transition)
  | .pending =>
    let (status, reason) := next action
    some (status, ⟨id, .pending, status.phase, reason⟩)
  | _ => none

end Status

end Countersign
