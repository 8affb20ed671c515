import Countersign.Request.Basic
import Std.Data.ExtTreeMap
import Std.Data.ExtTreeSet

set_option autoImplicit false

/-!
# The queue

The requests that a node has reported. They are pending until they are settled, and a
settled one stays known, so that the node's list cannot bring it back. While an
operation waits for the node, its request is marked as in flight, and a list without
that request does not remove it: a node stops listing a request as soon as it has
acted. The marks are a set, so two operations on one request share theirs.
-/

namespace Countersign

structure Queue where
  pending : Std.ExtTreeMap RequestId Request
  finished : Std.ExtTreeMap RequestId Request
  inFlight : Std.ExtTreeSet RequestId
  /-- The changes since the log was last taken. -/
  log : List Transition

namespace Queue

def empty : Queue := ⟨∅, ∅, ∅, []⟩

/-- The request of an id, pending or settled. -/
def get? (q : Queue) (id : RequestId) : Option Request :=
  match q.pending[id]? with
  | some request => some request
  | none => q.finished[id]?

/-- The pending requests in the order of their ids. -/
def requests (q : Queue) : List Request := q.pending.values

def size (q : Queue) : Nat := q.pending.size

def isEmpty (q : Queue) : Bool := q.size == 0

/-- The log, which is empty afterwards. -/
def takeLog (q : Queue) : List Transition × Queue := (q.log, { q with log := [] })

/-- Why a request that is not pending cannot be acted on. -/
def refusal (q : Queue) (id : RequestId) : Failure :=
  match q.finished[id]? with
  | some request => .alreadySettled id request.status.phase
  | none => .notFound id

/-- Marks a pending request as in flight. -/
def mark (q : Queue) (id : RequestId) : Except Failure Queue :=
  if id ∈ q.pending then .ok { q with inFlight := q.inFlight.insert id }
  else .error (q.refusal id)

def unmark (q : Queue) (id : RequestId) : Queue :=
  { q with inFlight := q.inFlight.erase id }

/-- Keeps a request under an id where its status says. -/
def place (q : Queue) (id : RequestId) (request : Request) : Queue :=
  if request.status.isSettled then
    { q with pending := q.pending.erase id, finished := q.finished.insert id request }
  else { q with pending := q.pending.insert id request }

/-- Acts on a pending request and records the change. -/
def act (q : Queue) (id : RequestId) (action : Action) : Except Failure Queue :=
  match q.pending[id]? with
  | none => .error (q.refusal id)
  | some request =>
    match request.status.after id action with
    | .error e => .error e
    | .ok (status, change) =>
      let q := q.place id { request with status := status }
      .ok { q with log := q.log ++ [change] }

/-- Takes in one reported request, unless it is known already. -/
def enter (q : Queue) (request : Request) : Queue :=
  if request.id ∈ q.finished ∨ request.id ∈ q.pending then q
  else { q with pending := q.pending.insert request.id request }

/-- Drops what is neither reported nor in flight. -/
def retain (q : Queue) (reported : List Request) : Queue :=
  { q with
    pending := q.pending.filter fun id _ =>
      reported.any (·.id == id) || q.inFlight.contains id }

/-- Takes in the node's whole list. -/
def receive (q : Queue) (reported : List Request) : Queue :=
  reported.foldl enter (q.retain reported)

end Queue

end Countersign
