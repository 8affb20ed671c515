import Countersign.Queue.Desk
import Countersign.Script

set_option autoImplicit false

/-!
# Scenarios

A desk at work with a scripted node. A call takes its reply when it is made, but a reply
may be held back behind a gate: the operation then waits under a name until it is looked
at again after the gate was opened, or it is dropped.
-/

namespace Countersign

/-- A reply, held back for as long as its gate is closed. -/
structure GatedReply where
  reply : Reply
  gate : Option String

/-- An operation that has its reply and must not see it yet. -/
structure HeldTask where
  name : String
  ticket : Nat
  op : Operation
  held : GatedReply

structure Scenario where
  desk : Desk
  encoder : Rpc.Encoder
  replies : List GatedReply
  gates : List String
  tasks : List HeldTask

namespace Scenario

/-- What the one who works at the desk is told. -/
inductive Notice where
  | result (result : Except Failure Answer)
  | waiting
  | cancelled
  | noTask
  | dropped (found : Bool)

def new : Scenario := ⟨.empty, .new, [], [], []⟩

def lay (s : Scenario) (replies : List GatedReply) : Scenario :=
  { s with replies := s.replies ++ replies }

def openGate (s : Scenario) (gate : String) : Scenario :=
  { s with gates := gate :: s.gates }

def isOpen (s : Scenario) (held : GatedReply) : Bool :=
  match held.gate with
  | none => true
  | some gate => s.gates.contains gate

def forget (s : Scenario) (name : String) : Scenario :=
  { s with tasks := s.tasks.filter (·.name != name) }

def find? (s : Scenario) (name : String) : Option HeldTask :=
  s.tasks.find? (·.name == name)

def cancel (s : Scenario) (ticket : Nat) (op : Operation) : Scenario :=
  { s with desk := s.desk.cancel ticket op }

/-- Drops the task of a name. -/
def drop (s : Scenario) (name : String) : Notice × Scenario :=
  match s.find? name with
  | none => (.dropped false, s)
  | some task => (.dropped true, (s.cancel task.ticket task.op).forget name)

def finish (s : Scenario) (ticket : Nat) (op : Operation) (reply : Reply) : Notice × Scenario :=
  let (result, desk) := s.desk.finish ticket op reply
  (.result result, { s with desk := desk })

/-- The next reply and its gate, taken off the script. -/
def take (s : Scenario) (call : Call) : GatedReply × Scenario :=
  match s.replies with
  | [] => (⟨.error (Script.silence call), none⟩, s)
  | held :: rest => (held, { s with replies := rest })

/-- Keeps a held operation under its name, which a task of the same name gives up; without
a name it is cancelled. -/
def hold (s : Scenario) (name : Option String) (ticket : Nat) (op : Operation)
    (held : GatedReply) : Notice × Scenario :=
  match name with
  | none => (.cancelled, s.cancel ticket op)
  | some name =>
    let s := (s.drop name).2
    (.waiting, { s with tasks := s.tasks ++ [⟨name, ticket, op, held⟩] })

/-- Starts an operation and runs it as far as its reply allows. The envelope of its call
comes with it, if it made one. -/
def start (s : Scenario) (name : Option String) (op : Operation) :
    Notice × Option Rpc.Request × Scenario :=
  match s.desk.start op with
  | .error failure => (.result (.error failure), none, s)
  | .ok (ticket, desk) =>
    let envelope := s.encoder.envelope op.call
    let (held, s) := { s with desk := desk, encoder := s.encoder.advance }.take op.call
    let (notice, s) :=
      if s.isOpen held then s.finish ticket op held.reply else s.hold name ticket op held
    (notice, some envelope, s)

/-- Looks at a held task again. -/
def poll (s : Scenario) (name : String) : Notice × Scenario :=
  match s.find? name with
  | none => (.noTask, s)
  | some task =>
    if s.isOpen task.held then (s.forget name).finish task.ticket task.op task.held.reply
    else (.waiting, s)

/-- Takes the log off the queue. -/
def takeLog (s : Scenario) : List Transition × Scenario :=
  let (changes, desk) := s.desk.takeLog
  (changes, { s with desk := desk })

end Scenario

end Countersign
