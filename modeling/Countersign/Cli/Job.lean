import Countersign.Cli.Arguments
import Countersign.Endpoint
import Countersign.Json.Tree
import Countersign.LocalTx.View
import Countersign.Queue.Operation
import Countersign.Tracker

set_option autoImplicit false

/-!
# Commands at work

A command is a job that makes one call after another. A failed call ends it; a value
ends it or leads to the next call. A request is confirmed or rejected only after the
node's list was fetched, so only what the node lists is decided on.
-/

namespace Countersign.Cli

inductive Job where
  | call (call : Call)
  | requests
  /-- Fetches the list before a decision. -/
  | lookUp (id : RequestId) (decision : Decision)
  | decide (id : RequestId) (decision : Decision) (queue : Queue)
  | post (transaction : Json)
  | settle (id : RequestId) (attempts : UInt32)
  | receipt (hash : Hash) (attempts : UInt32)
  | localTxs

/-- What is printed, and the message of the failure with its causes, if it failed. -/
structure Ending where
  lines : List String
  failure : Option (List String)
  deriving DecidableEq, Repr

inductive Turn where
  | done (ending : Ending)
  /-- Prints lines, pauses if told to, and goes on with the next call. -/
  | next (lines : List String) (pause : Option Duration) (job : Job)

namespace Ending

def success (lines : List String) : Ending := ⟨lines, none⟩

def ofFailure (failure : Failure) : Ending := ⟨[], some [failure.message]⟩

end Ending

def outcomeLine (id : RequestId) : Outcome → String
  | .transaction hash => id.text ++ " confirmed: " ++ hash.hex
  | .signature bytes => id.text ++ " signed: " ++ Hex.encode bytes
  | .other value => id.text ++ " confirmed: " ++ value.compact

def rejectedLine (id : RequestId) : String := id.text ++ " rejected"

def requestLine (r : Request) : String :=
  r.id.text ++ "  " ++ r.payload.kind ++ "  origin=" ++ r.origin.compact

def requestLines : List Request → List String
  | [] => ["no requests waiting for confirmation"]
  | requests => requests.map requestLine

/-- The text with blanks in front, up to a width. -/
def padLeft (width : Nat) (text : String) : String :=
  String.ofList (List.replicate (width - text.length) ' ') ++ text

def localTxLine (tx : LocalTx) : String :=
  let block := if tx.isPending then "pending" else Digits.decimal tx.block.toNat
  tx.hash.hex ++ "  " ++ padLeft 10 block ++ "  " ++ tx.status

def verdictLine (id : RequestId) : Verdict → String
  | .confirmed outcome => outcomeLine id outcome
  | .rejected => rejectedLine id

def Ending.ofVerdict (id : RequestId) : Except Failure Verdict → Ending
  | .ok verdict => .success [verdictLine id verdict]
  | .error e => .ofFailure e

/-- How a wait for a request ends that does not lead on to a receipt. -/
def Ending.ofStatus (id : RequestId) : Except Failure Status → Ending
  | .ok (.confirmed outcome) => .success [outcomeLine id outcome]
  | .ok .rejected => .success [rejectedLine id]
  | .ok .pending => ⟨[], some [id.text ++ " still pending"]⟩
  | .error e => .ofFailure e

def Ending.ofReceipt : Except Failure Json → Ending
  | .ok value => .success [value.indented]
  | .error e => .ofFailure e

namespace Job

/-- The call that the job waits for. -/
def ask : Job → Call
  | .call asked => asked
  | .requests => Operation.refresh.call
  | .lookUp _ _ => Operation.refresh.call
  | .decide id decision _ => decision.call id
  | .post transaction => Tracker.postCall transaction
  | .settle id _ => (Tracker.settlement id).call
  | .receipt hash _ => (Tracker.receipt hash).call
  | .localTxs => LocalTx.fetchCall

/-- Goes on to the decision if the request is listed. -/
def decideOn (queue : Queue) (id : RequestId) (decision : Decision) : Turn :=
  match queue.start (.decide id decision) with
  | .error e => .done (.ofFailure e)
  | .ok queue => .next [] none (.decide id decision queue)

/-- What follows when a wait for a request has ended. -/
def settled (id : RequestId) : Except Failure Status → Turn
  | .ok (.confirmed (.transaction hash)) =>
    .next [outcomeLine id (.transaction hash)] none (.receipt hash 0)
  | result => .done (.ofStatus id result)

/-- What a value leads to. -/
def heard (policy : Tracker.Policy) (value : Json) : Job → Turn
  | .call _ => .done (.success [value.indented])
  | .requests =>
    match (Queue.empty.listed (.ok value)).1 with
    | .ok pending => .done (.success (requestLines pending))
    | .error e => .done (.ofFailure e)
  | .lookUp id decision =>
    match Queue.empty.listed (.ok value) with
    | (.error e, _) => .done (.ofFailure e)
    | (.ok _, queue) => decideOn queue id decision
  | .decide id decision queue =>
    .done (.ofVerdict id (queue.decided id (.ok value) decision).1)
  | .post _ =>
    match Tracker.posted (.ok value) with
    | .ok id => .done (.success [id.text])
    | .error e => .done (.ofFailure e)
  | .settle id attempts =>
    match (Tracker.settlement id).hear policy attempts (.ok value) with
    | .done result => settled id result
    | .again attempts => .next [] (some policy.interval) (.settle id attempts)
  | .receipt hash attempts =>
    match (Tracker.receipt hash).hear policy attempts (.ok value) with
    | .done result => .done (.ofReceipt result)
    | .again attempts => .next [] (some policy.interval) (.receipt hash attempts)
  | .localTxs =>
    match LocalTx.fetched (.ok value) with
    | .error e => .done (.ofFailure e)
    | .ok txs => .done (.success ((LocalTxView.empty.reconcile txs).2.entries.map localTxLine))

/-- How a failed call ends the job; for a request that is waited for it can mean that it
was rejected. -/
def failed (e : CallError) : Job → Ending
  | .decide id decision queue => .ofVerdict id (queue.decided id (.error e) decision).1
  | .settle id _ => .ofStatus id (Tracker.refused e)
  | .call _ => .ofFailure (.call e)
  | .requests => .ofFailure (.call e)
  | .lookUp _ _ => .ofFailure (.call e)
  | .post _ => .ofFailure (.call e)
  | .receipt _ _ => .ofFailure (.call e)
  | .localTxs => .ofFailure (.call e)

end Job

/-- Each parameter is JSON if it reads as such, and otherwise text. -/
def param (text : String) : Json := (Json.parse? text).getD (.str text)

/-- The id that an argument names, or the failure's message. -/
def requestId (text : String) : Except (List String) RequestId :=
  match RequestId.ofJson (.str text) with
  | .ok id => .ok id
  | .error e => .error ["invalid request id " ++ text ++ ": " ++ (Failure.malformed e).message]

/-- The first call's job, once the arguments of a command are read. -/
def Command.job : Command → Except (List String) Job
  | .call method params => .ok (.call ⟨method, params.map param⟩)
  | .requests => .ok .requests
  | .confirm id password modification =>
    match requestId id, modification.map Json.parse? with
    | .error e, _ => .error e
    | .ok _, some none => .error ["invalid --modification json"]
    | .ok id, some (some value) => .ok (.lookUp id (.confirm value password))
    | .ok id, none => .ok (.lookUp id (.confirm (.obj []) password))
  | .reject id => (requestId id).map fun id => .lookUp id .reject
  | .post transaction =>
    match Json.parse? transaction with
    | some value => .ok (.post value)
    | none => .error ["invalid transaction json"]
  | .track id => (requestId id).map fun id => .settle id 0
  | .localTxs => .ok .localTxs

/-- The settings of the environment, as far as the command line does not tell otherwise. -/
def Invocation.settings (invocation : Invocation) (settings : Settings) : Settings :=
  { settings with
    url := invocation.url.getD settings.url
    debug := settings.debug || invocation.debug }

/-- The polling that settings ask for. -/
def policyOf (settings : Settings) : Tracker.Policy :=
  ⟨settings.pollInterval, settings.maxPollAttempts⟩

/-- Opens the way to the node and reads the arguments, in this order. -/
def begin (reachable : String → Bool) (settings : Settings) (command : Command) :
    Except (List String) (Endpoint × Job) :=
  match Endpoint.connect reachable settings with
  | .error e => .error ["failed to open rpc transport", e.message]
  | .ok endpoint =>
    match command.job with
    | .error e => .error e
    | .ok job => .ok (endpoint, job)

end Countersign.Cli
