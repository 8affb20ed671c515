import Countersign.Rpc.Encoder

set_option autoImplicit false

/-!
# Scripted nodes

A node whose replies are laid out in advance. Each call is encoded and takes the next
reply; a call for which none is left fails. A script answers in full what a program
does with every reply that it could get.
-/

namespace Countersign

structure Script where
  encoder : Rpc.Encoder
  replies : List Reply
  /-- The envelopes of the calls that were made. -/
  sent : List Rpc.Request

namespace Script

def ofReplies (replies : List Reply) : Script := ⟨.new, replies, []⟩

/-- What a call gets when no reply is left. -/
def silence (call : Call) : CallError :=
  .connection ("no scripted reply for " ++ call.method)

/-- Encodes a call without answering it. -/
def send (script : Script) (call : Call) : Script :=
  { script with
    encoder := script.encoder.advance
    sent := script.sent ++ [script.encoder.envelope call] }

def execute (script : Script) (call : Call) : Reply × Script :=
  let script := script.send call
  match script.replies with
  | [] => (.error (silence call), script)
  | reply :: rest => (reply, { script with replies := rest })

end Script

end Countersign
