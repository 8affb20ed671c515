import Countersign.Rpc.Response
import Countersign.Text.Utf8
import Std.Data.ExtTreeMap

set_option autoImplicit false

/-!
# One connection for many calls

Answers come over the connection in any order, and a table tells by id which call each
one is for. A call in the table is named by its ticket. An answer takes its entry off
the table, so no call is answered twice; an answer that cannot be read, has no id, or
has an id that is not in the table, is dropped. When the connection ends, every call
that is still in the table is told so, and the table is closed for good.
-/

namespace Countersign.Socket

/-- What is told to those who watch the connection. -/
inductive Signal where
  | failed (detail : String)
  | closed
  deriving DecidableEq, Repr

/-- A reply on its way to the call with that ticket. -/
structure Delivery where
  ticket : Nat
  reply : Reply

structure Connection where
  connected : Bool
  /-- The table takes no more entries. -/
  sealed : Bool
  /-- The tickets of the calls that wait for an answer, by id. -/
  table : Std.ExtTreeMap UInt64 Nat
  signals : List Signal

namespace Connection

def new : Connection := ⟨true, false, ∅, []⟩

/-- The one that waits under an id, if there is one, is told that the connection has
nothing more for it. -/
def abandon (c : Connection) (id : UInt64) : List Delivery :=
  c.table[id]?.toList.map fun ticket => ⟨ticket, .error .connectionClosed⟩

/-- Enters a call, which fails once the table is closed. A call that still waits under
the same id gives way. -/
def register (c : Connection) (id : UInt64) (ticket : Nat) :
    Except CallError (List Delivery × Connection) :=
  if c.sealed then .error .connectionClosed
  else .ok (c.abandon id, { c with table := c.table.insert id ticket })

/-- Takes an id off the table when its call has ended. -/
def release (c : Connection) (id : UInt64) : List Delivery × Connection :=
  (c.abandon id, { c with table := c.table.erase id })

/-- Hands an answer on to the call that waits for it. -/
def answer (c : Connection) (response : Rpc.Response) : List Delivery × Connection :=
  match response.id with
  | none => ([], c)
  | some id =>
    match c.table[id]? with
    | none => ([], c)
    | some ticket => ([⟨ticket, response.reply⟩], { c with table := c.table.erase id })

/-- Takes in a text frame. -/
def dispatch (c : Connection) (text : String) : List Delivery × Connection :=
  match Rpc.Response.decode text with
  | .error _ => ([], c)
  | .ok response => c.answer response

/-- Takes in a binary frame, which counts only if it is text. -/
def dispatchBytes (c : Connection) (bytes : List UInt8) : List Delivery × Connection :=
  match Utf8.decode? bytes with
  | none => ([], c)
  | some text => c.dispatch text

/-- Ends the connection. Only the first time counts, whichever side it comes from. -/
def shutDown (c : Connection) (failure : Option String) : List Delivery × Connection :=
  if c.connected then
    (c.table.values.map fun ticket => ⟨ticket, .error .connectionClosed⟩,
      { connected := false
        sealed := true
        table := ∅
        signals := c.signals ++ failure.toList.map .failed ++ [.closed] })
  else ([], c)

end Connection

end Countersign.Socket
