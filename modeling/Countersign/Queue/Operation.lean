import Countersign.Queue.Basic

set_option autoImplicit false

/-!
# Operations on the queue

An operation is one call to the node with something to do before it and after it.
Starting a decision marks its request; the mark goes when the operation ends, in
whatever way. A confirmation whose call fails leaves the request pending and goes on
record; a rejection counts only if the node answers with exactly `true`.
-/

namespace Countersign

/-- What is decided on a request. -/
inductive Decision where
  | confirm (modification : Json) (password : String)
  /-- Confirms with what was signed outside the node. -/
  | confirmRaw (signed : List UInt8)
  | reject

inductive Operation where
  | refresh
  | decide (id : RequestId) (decision : Decision)

/-- What a decision that succeeds has made of its request. -/
inductive Verdict where
  | confirmed (outcome : Outcome)
  | rejected

/-- What an operation that succeeds answers. -/
inductive Answer where
  | listed (requests : List Request)
  | decided (verdict : Verdict)

def Decision.call (id : RequestId) : Decision → Call
  | .confirm modification password =>
    ⟨"signer_confirmRequest", [id.param, modification, .str password]⟩
  | .confirmRaw signed => ⟨"signer_confirmRequestRaw", [id.param, .str (Hex.encode signed)]⟩
  | .reject => ⟨"signer_rejectRequest", [id.param]⟩

def Operation.call : Operation → Call
  | .refresh => ⟨"signer_requestsToConfirm", []⟩
  | .decide id decision => decision.call id

namespace Queue

/-- What is done before the call, which is made only if this succeeds. -/
def start (q : Queue) : Operation → Except Failure Queue
  | .refresh => .ok q
  | .decide id _ => q.mark id

/-- What happens to the queue when an operation is given up before its call is answered. -/
def cancel (q : Queue) : Operation → Queue
  | .refresh => q
  | .decide id _ => q.unmark id

/-- Takes in the reply to a refresh; one that cannot be read in full changes nothing. -/
def listed (q : Queue) : Reply → Except Failure (List Request) × Queue
  | .error e => (.error (.call e), q)
  | .ok (.arr entries) =>
    match Request.listOfJson entries with
    | .error e => (.error (.malformed e), q)
    | .ok reported =>
      let q := q.receive reported
      (.ok q.requests, q)
  | .ok _ => (.error (.malformed (.notArray Operation.refresh.call.method)), q)

/-- Acts and tells the verdict; where the action is refused the queue stays as it is. -/
def settle (q : Queue) (id : RequestId) (action : Action) (verdict : Verdict) :
    Except Failure Verdict × Queue :=
  match q.act id action with
  | .ok q => (.ok verdict, q)
  | .error e => (.error e, q)

/-- Records that a confirmation failed, if the request is still pending. -/
def recordFailure (q : Queue) (id : RequestId) : Queue :=
  match q.act id .confirmFailed with
  | .ok q => q
  | .error _ => q

def confirmed (q : Queue) (id : RequestId) : Reply → Except Failure Verdict × Queue
  | .ok value =>
    let outcome := Outcome.ofJson value
    q.settle id (.confirm outcome) (.confirmed outcome)
  | .error e => (.error (.call e), q.recordFailure id)

def rejected (q : Queue) (id : RequestId) : Reply → Except Failure Verdict × Queue
  | .ok (.bool true) => q.settle id .reject .rejected
  | .ok _ => (.error (.rejectRefused id), q)
  | .error e => (.error (.call e), q)

/-- Takes in the reply to a decision. -/
def decided (q : Queue) (id : RequestId) (reply : Reply) : Decision → Except Failure Verdict × Queue
  | .confirm _ _ => q.confirmed id reply
  | .confirmRaw _ => q.confirmed id reply
  | .reject => q.rejected id reply

/-- What is done after the call, before the mark goes. -/
def conclude (q : Queue) (reply : Reply) : Operation → Except Failure Answer × Queue
  | .refresh =>
    let (result, q) := q.listed reply
    (result.map .listed, q)
  | .decide id decision =>
    let (result, q) := q.decided id reply decision
    (result.map .decided, q)

/-- Ends an operation with the reply to its call. -/
def finish (q : Queue) (op : Operation) (reply : Reply) : Except Failure Answer × Queue :=
  let (answer, q) := q.conclude reply op
  (answer, q.cancel op)

end Queue

end Countersign
