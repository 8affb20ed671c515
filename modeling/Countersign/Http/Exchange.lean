import Countersign.Call.Options
import Countersign.Http.Status
import Countersign.Rpc.Encoder
import Countersign.Rpc.Response
import Countersign.Text.Utf8

set_option autoImplicit false

/-!
# Calls over HTTP

Every call is one POST, and its answer is the body that comes back with status 200.
Request and answer belong together by the exchange, so the id of the answer does not
matter. Failures that a server or node tells of go to the log; an exchange that breaks
off and an answer that cannot be read do not.

An answer comes without headers here, so nothing is redirected, and no proxy stands
between the client and the server. Nor is a call given up by its caller: what becomes of
an aborted call is told by `CallOptions` alone.
-/

namespace Countersign.Http

/-- What becomes of a request at the other end. -/
inductive Reaction where
  /-- A status with a body, which breaks off early unless it is complete. -/
  | response (status : Nat) (body : List UInt8) (complete : Bool)
  | close
  | hang
  deriving DecidableEq, Inhabited

/-- A request as the server gets it. -/
structure Post where
  accept : String
  contentType : String
  contentLength : Nat
  body : String
  deriving DecidableEq

def Post.ofBody (body : String) : Post :=
  ⟨"application/json", "application/json", (Utf8.encode body).length, body⟩

/-- The exchange broke off before an answer began. -/
def requestFailed : CallError := .connection "http request failed"

/-- The exchange broke off within the answer. -/
def bodyFailed : CallError := .connection "http body read failed"

/-- What a call comes back with, none while the server does not answer, and what goes to the
log on the way, in which `tell` tells of a failure. -/
def Reaction.outcome (tell : CallError → List Rpc.LogLine) :
    Reaction → Option Reply × List Rpc.LogLine
  | .response status body complete =>
    if status ≠ 200 then
      let e := .http status (reason status)
      (some (.error e), tell e)
    else if complete then
      match Rpc.Response.decode (Utf8.decodeLossy body) with
      | .error e => (some (.error e), [])
      | .ok answer =>
        match answer.reply with
        | .ok value => (some (.ok value), [])
        | .error e => (some (.error e), tell e)
    else (some (.error bodyFailed), [])
  | .close => (some (.error requestFailed), [])
  | .hang => (none, [])

def Reaction.reply? (reaction : Reaction) : Option Reply := (reaction.outcome fun _ => []).1

/-- What a call comes back with does not hang on the log. -/
theorem Reaction.outcome_fst (tell : CallError → List Rpc.LogLine) (reaction : Reaction) :
    (reaction.outcome tell).1 = reaction.reply? := by
  cases reaction with
  | response status body complete =>
    simp only [reply?, outcome]
    split
    · rfl
    · cases complete with
      | true =>
        cases Rpc.Response.decode (Utf8.decodeLossy body) with
        | error e => rfl
        | ok answer =>
          simp only
          cases answer.reply <;> rfl
      | false => rfl
  | close => rfl
  | hang => rfl

structure Client where
  encoder : Rpc.Encoder
  timeout : Option Duration

/-- One call: what it comes back with, the request it made, and what it logged. A call
without a time limit that is never answered comes back with nothing. -/
structure Exchange where
  reply : Option Reply
  post : Post
  log : List Rpc.LogLine

def Client.execute (client : Client) (options : CallOptions) (call : Call) (reaction : Reaction) :
    Exchange × Client :=
  let (encoded, lines, encoder) := client.encoder.encode call
  let (answer, told) := reaction.outcome (client.encoder.failed call.method)
  let limit := (options.orDefault client.timeout).timeout
  ({ reply := CallOptions.Moment.look ⟨false, answer, limit⟩
     post := .ofBody encoded.body
     log := lines ++ told },
    { client with encoder := encoder })

theorem Client.execute_fst_reply (client : Client) (options : CallOptions) (call : Call)
    (reaction : Reaction) :
    (client.execute options call reaction).1.reply = CallOptions.Moment.look
      ⟨false, reaction.reply?, (options.orDefault client.timeout).timeout⟩ := by
  rw [← Reaction.outcome_fst (client.encoder.failed call.method)]
  rfl

end Countersign.Http
