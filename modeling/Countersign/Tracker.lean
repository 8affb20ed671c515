import Countersign.Request.Basic
import Countersign.Script

set_option autoImplicit false

/-!
# Tracking a request

The side that posts a transaction waits until its request is settled and then until the
transaction has a receipt. Both waits ask again and again, pause in between, and stop at
the first reply that says something, or when the attempts are used up.
-/

namespace Countersign

namespace Tracker

/-- How long to pause between two calls, and how many to make at most. -/
structure Policy where
  interval : Duration
  maxAttempts : Option UInt32

def Policy.default : Policy := ⟨.second, none⟩

/-- One more attempt; the count stays at the largest 32-bit number. -/
def oneMore (attempts : UInt32) : UInt32 :=
  if attempts.toNat + 1 < UInt32.size then attempts + 1 else attempts

/-- A question that a null result leaves open. -/
structure Inquiry (α : Type) where
  call : Call
  found : Json → α
  failed : CallError → Except Failure α

inductive Turn (α : Type) where
  | done (result : Except Failure α)
  | again (attempts : UInt32)

/-- What a reply leads to after so many attempts that said nothing. -/
def Inquiry.hear {α : Type} (inquiry : Inquiry α) (policy : Policy) (attempts : UInt32) :
    Reply → Turn α
  | .error e => .done (inquiry.failed e)
  | .ok .null =>
    let attempts := oneMore attempts
    match policy.maxAttempts with
    | none => .again attempts
    | some most =>
      if most ≤ attempts then
        .done (.error (.call (.timeout (policy.interval.times attempts))))
      else .again attempts
  | .ok value => .done (.ok (inquiry.found value))

/-- A call, or a sleep before the next one. -/
inductive Act where
  | call (request : Rpc.Request)
  | sleep (time : Duration)

def Act.request? : Act → Option Rpc.Request
  | .call request => some request
  | .sleep _ => none

def requests (acts : List Act) : List Rpc.Request := acts.filterMap Act.request?

@[simp]
theorem requests_nil : requests [] = [] := rfl

@[simp]
theorem requests_call (request : Rpc.Request) (acts : List Act) :
    requests (.call request :: acts) = request :: requests acts := rfl

@[simp]
theorem requests_sleep (time : Duration) (acts : List Act) :
    requests (.sleep time :: acts) = requests acts := rfl

/-- How a wait went: its result, what it did one after the other, and the script it left. -/
structure Wait (α : Type) where
  result : Except Failure α
  acts : List Act
  script : Script

/-- Only a reply of the script leaves a question open. -/
theorem Inquiry.length_lt_of_again {α : Type} {inquiry : Inquiry α} {policy : Policy}
    {attempts more : UInt32} {script : Script}
    (again : inquiry.hear policy attempts (script.execute inquiry.call).1 = .again more) :
    (script.execute inquiry.call).2.replies.length < script.replies.length := by
  obtain ⟨encoder, replies, sent⟩ := script
  cases replies with
  | nil => cases again
  | cons reply rest => exact Nat.lt_succ_self rest.length

/-- Asks until there is an answer, and sleeps before it asks again. -/
def Inquiry.wait {α : Type} (inquiry : Inquiry α) (policy : Policy) (attempts : UInt32)
    (script : Script) : Wait α :=
  let asked := Act.call (script.encoder.envelope inquiry.call)
  let executed := script.execute inquiry.call
  match _ : inquiry.hear policy attempts executed.1 with
  | .done result => ⟨result, [asked], executed.2⟩
  | .again attempts =>
    let later := inquiry.wait policy attempts executed.2
    { later with acts := asked :: .sleep policy.interval :: later.acts }
termination_by script.replies.length
decreasing_by exact inquiry.length_lt_of_again ‹_›

def postCall (transaction : Json) : Call := ⟨"parity_postTransaction", [transaction]⟩

/-- The id under which a posted transaction waits. -/
def posted : Reply → Except Failure RequestId
  | .error e => .error (.call e)
  | .ok value =>
    match RequestId.ofJson value with
    | .ok id => .ok id
    | .error e => .error (.malformed e)

def checkCall (id : RequestId) : Call := ⟨"parity_checkRequest", [id.param]⟩

/-- A node reports a rejection as an error of its own code. -/
def refused : CallError → Except Failure Status
  | .rpc error => if error.isRejection then .ok .rejected else .error (.call (.rpc error))
  | e => .error (.call e)

/-- The status that one check tells. -/
def checked : Reply → Except Failure Status
  | .ok .null => .ok .pending
  | .ok value => .ok (.confirmed (Outcome.ofJson value))
  | .error e => refused e

/-- Waits until a request is settled. -/
def settlement (id : RequestId) : Inquiry Status :=
  ⟨checkCall id, fun value => .confirmed (Outcome.ofJson value), refused⟩

/-- Waits until a transaction has a receipt. -/
def receipt (hash : Hash) : Inquiry Json :=
  ⟨⟨"eth_getTransactionReceipt", [.str hash.hex]⟩, id, fun e => .error (.call e)⟩

end Tracker

end Countersign
