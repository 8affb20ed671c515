import Countersign.Queue.Operation

set_option autoImplicit false

/-!
# Operations side by side

A desk is a queue together with the operations that wait for the node. An operation
that has made its call gets a ticket; later its reply comes, or it is given up. Between
the two any other operation may start or end, so a list of events is one interleaving.
-/

namespace Countersign

structure Desk where
  queue : Queue
  /-- The operations that have made their call, by ticket. -/
  waiting : List (Nat × Operation)
  nextTicket : Nat

namespace Desk

inductive Event where
  | start (op : Operation)
  | reply (ticket : Nat) (reply : Reply)
  | cancel (ticket : Nat)
  | takeLog

inductive Report where
  /-- The operation failed before it made a call. -/
  | refused (op : Operation) (failure : Failure)
  | called (ticket : Nat) (op : Operation)
  | finished (op : Operation) (result : Except Failure Answer)
  | cancelled (op : Operation)
  | noTicket
  | log (changes : List Transition)

def empty : Desk := ⟨.empty, [], 0⟩

/-- The operations that wait, without the one of a ticket. -/
def others (desk : Desk) (ticket : Nat) : List (Nat × Operation) :=
  desk.waiting.filter (·.1 != ticket)

/-- Starts an operation, which gets the next ticket if it makes its call. -/
def start (desk : Desk) (op : Operation) : Except Failure (Nat × Desk) :=
  match desk.queue.start op with
  | .error e => .error e
  | .ok queue =>
    .ok (desk.nextTicket,
      ⟨queue, desk.waiting ++ [(desk.nextTicket, op)], desk.nextTicket + 1⟩)

/-- Ends an operation that waits under a ticket with the reply to its call. -/
def finish (desk : Desk) (ticket : Nat) (op : Operation) (reply : Reply) :
    Except Failure Answer × Desk :=
  let (result, queue) := desk.queue.finish op reply
  (result, { desk with queue := queue, waiting := desk.others ticket })

/-- Gives up an operation that waits under a ticket. -/
def cancel (desk : Desk) (ticket : Nat) (op : Operation) : Desk :=
  { desk with queue := desk.queue.cancel op, waiting := desk.others ticket }

def takeLog (desk : Desk) : List Transition × Desk :=
  let (changes, queue) := desk.queue.takeLog
  (changes, { desk with queue := queue })

def step (desk : Desk) : Event → Report × Desk
  | .start op =>
    match desk.start op with
    | .error e => (.refused op e, desk)
    | .ok (ticket, desk) => (.called ticket op, desk)
  | .reply ticket reply =>
    match desk.waiting.lookup ticket with
    | none => (.noTicket, desk)
    | some op =>
      let (result, desk) := desk.finish ticket op reply
      (.finished op result, desk)
  | .cancel ticket =>
    match desk.waiting.lookup ticket with
    | none => (.noTicket, desk)
    | some op => (.cancelled op, desk.cancel ticket op)
  | .takeLog =>
    let (changes, desk) := desk.takeLog
    (.log changes, desk)

/-- All events in turn, with the report of each. -/
def run (desk : Desk) : List Event → List Report × Desk
  | [] => ([], desk)
  | event :: rest =>
    let (report, desk) := desk.step event
    let (reports, desk) := desk.run rest
    (report :: reports, desk)

end Desk

end Countersign
