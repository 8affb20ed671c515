import Countersign.Call.Options
import Countersign.Rpc.Encoder
import Countersign.Socket.Connection

set_option autoImplicit false

/-!
# Calls over a socket

A call takes an id, enters the table and sends its envelope. Then it waits, and each
time it is looked at it may end: aborted, answered, or out of time, in this order of
precedence. However it ends, its entry goes off the table, and a failure goes to the
log. A call on a connection that is closed fails before it takes an id.

An envelope that is to be sent is always taken. That the side which writes has ended while
the connection still counts as open, so that a call fails behind its entry, is left out.
-/

namespace Countersign

namespace Socket

/-- A call that has entered the table and has not ended. -/
structure Waiting where
  method : String
  id : UInt64
  limit : Option Duration
  abortable : Bool
  aborted : Bool
  /-- The reply that has been delivered and not been taken yet. -/
  answer : Option Reply

/-- The first delivery stays. -/
def Waiting.deliver (w : Waiting) (reply : Reply) : Waiting :=
  match w.answer with
  | some _ => w
  | none => { w with answer := some reply }

/-- How the call stands when its time limit has run out or not. -/
def Waiting.look (w : Waiting) (expired : Bool) : Option Reply :=
  CallOptions.Moment.look ⟨w.aborted, w.answer, if expired then w.limit else none⟩

end Socket

structure Socket where
  encoder : Rpc.Encoder
  connection : Socket.Connection
  /-- The calls that have not ended, by ticket. -/
  calls : Std.ExtTreeMap Nat Socket.Waiting
  nextTicket : Nat
  timeout : Option Duration

namespace Socket

inductive Event where
  | start (call : Call) (options : CallOptions) (abortable : Bool)
  | text (frame : String)
  | binary (frame : List UInt8)
  /-- Looks at a call, whose time limit, if it has one, may have run out. -/
  | poll (ticket : Nat) (expired : Bool)
  | abort (ticket : Nat)
  | drop (ticket : Nat)
  | shutDown (failure : Option String)

inductive Report where
  | started (ticket : Nat) (encoded : Rpc.Encoded)
  /-- A call has ended, under a ticket if it ever had one. -/
  | ended (ticket : Option Nat) (reply : Reply)
  | waiting
  | noCall
  | dropped
  | noted

def new (debug : Bool) (timeout : Option Duration) : Socket :=
  ⟨Rpc.Encoder.new.setDebug debug, .new, ∅, 0, timeout⟩

def pendingCalls (s : Socket) : Nat := s.connection.table.size

def deliver (s : Socket) (d : Delivery) : Socket :=
  { s with calls := s.calls.modify d.ticket (·.deliver d.reply) }

/-- Puts a connection in place and hands out what it delivers. -/
def settle (s : Socket) (result : List Delivery × Connection) : Socket :=
  result.1.foldl deliver { s with connection := result.2 }

/-- Forgets a call that has ended and takes its entry off the table. -/
def forget (s : Socket) (ticket : Nat) (id : UInt64) : Socket :=
  { s with calls := s.calls.erase ticket }.settle (s.connection.release id)

def start (s : Socket) (call : Call) (options : CallOptions) (abortable : Bool) :
    Report × List Rpc.LogLine × Socket :=
  if s.connection.connected then
    let (encoded, lines, encoder) := s.encoder.encode call
    let ticket := s.nextTicket
    let s := { s with encoder := encoder, nextTicket := ticket + 1 }
    match s.connection.register encoded.id ticket with
    | .error e => (.ended none (.error e), lines, s)
    | .ok result =>
      let waiting : Waiting :=
        { method := call.method
          id := encoded.id
          limit := (options.orDefault s.timeout).timeout
          abortable := abortable
          aborted := false
          answer := none }
      (.started ticket encoded, lines,
        { s.settle result with calls := (s.settle result).calls.insert ticket waiting })
  else (.ended none (.error .connectionClosed), [], s)

/-- The line that a call leaves when it ends. -/
def log (s : Socket) (method : String) : Reply → List Rpc.LogLine
  | .ok _ => []
  | .error e => s.encoder.failed method e

def poll (s : Socket) (ticket : Nat) (expired : Bool) : Report × List Rpc.LogLine × Socket :=
  match s.calls[ticket]? with
  | none => (.noCall, [], s)
  | some w =>
    match w.look expired with
    | none => (.waiting, [], s)
    | some reply => (.ended (some ticket) reply, s.log w.method reply, s.forget ticket w.id)

def step (s : Socket) : Event → Report × List Rpc.LogLine × Socket
  | .start call options abortable => s.start call options abortable
  | .text frame => (.noted, [], s.settle (s.connection.dispatch frame))
  | .binary frame => (.noted, [], s.settle (s.connection.dispatchBytes frame))
  | .poll ticket expired => s.poll ticket expired
  | .abort ticket =>
    (.noted, [],
      { s with calls := s.calls.modify ticket fun w => { w with aborted := w.aborted || w.abortable } })
  | .drop ticket =>
    match s.calls[ticket]? with
    | none => (.noCall, [], s)
    | some w => (.dropped, [], s.forget ticket w.id)
  | .shutDown failure => (.noted, [], s.settle (s.connection.shutDown failure))

/-- All events in turn, with the report of each and the whole log. -/
def run (s : Socket) : List Event → List Report × List Rpc.LogLine × Socket
  | [] => ([], [], s)
  | event :: rest =>
    let (report, lines, s) := s.step event
    let (reports, more, s) := s.run rest
    (report :: reports, lines ++ more, s)

end Socket

end Countersign
