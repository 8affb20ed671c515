import Countersign.Cli.Rehearsal
import Countersign.Http.Message
import Std.Async.DNS
import Std.Async.TCP
import Std.Async.Timer

set_option autoImplicit false

/-!
# The command line

Runs a command against the node that the settings name. What is asked, what a reply
leads to and what is printed is decided by the jobs; here requests are sent and answers
fetched. Calls travel over HTTP, and an address that asks for a socket is not reached.
-/

namespace Countersign.Cli

open Std.Async Std.Net

def usage : String :=
  "Usage: parity-signer [OPTIONS] <COMMAND>\n\n" ++
  "Commands:\n" ++
  "  call <METHOD> [PARAMS]...  Execute an arbitrary method\n" ++
  "  requests                   List requests waiting in the signer queue\n" ++
  "  confirm <ID>               Confirm a queued request with the account password\n" ++
  "  reject <ID>                Reject a queued request\n" ++
  "  post <TRANSACTION>         Post a transaction for confirmation\n" ++
  "  track <ID>                 Wait for a posted request, then for its receipt\n" ++
  "  local-txs                  Show the node's local transactions, pending first\n\n" ++
  "Options:\n" ++
  "      --url <URL>  Node JSON-RPC endpoint\n" ++
  "      --debug      Log every encoded request and failed call\n" ++
  "  -h, --help       Print help\n" ++
  "  -V, --version    Print version"

/-- All bytes until the other side ends the connection. -/
partial def readAll (client : TCP.Socket.Client) (sofar : ByteArray) : Async ByteArray := do
  match ← client.recv? 65536 with
  | some bytes => readAll client (sofar ++ bytes)
  | none => return sofar

def addressOf (target : Http.Target) : Async (Option SocketAddress) := do
  let found ← DNS.getAddrInfo target.host ""
  return found[0]?.map fun
    | .v4 addr => .v4 ⟨addr, target.listensOn⟩
    | .v6 addr => .v6 ⟨addr, target.listensOn⟩

/-- One exchange; whatever goes wrong on the way closes it. -/
def exchange (url : String) (post : Http.Post) : Async Http.Reaction := do
  try
    let some target := Http.Target.ofUrl? url | return .close
    let some address ← addressOf target | return .close
    let client ← TCP.Socket.Client.mk
    client.connect address
    client.send (post.message target).toUTF8
    let bytes ← readAll client .empty
    return .ofBytes bytes.toList
  catch _ => return .close

def pause (d : Duration) : Async Unit :=
  sleep (Std.Time.Millisecond.Offset.ofNat (d.nanos / 1000000))

/-- An exchange that is given up after a time limit. -/
def exchangeWithin (limit : Option Duration) (url : String) (post : Http.Post) :
    Async Http.Reaction :=
  match limit with
  | none => exchange url post
  | some limit => Async.race (exchange url post) (do pause limit; return .hang)

def printError (causes : List String) : IO Unit :=
  IO.eprintln ("Error: " ++ "\n\nCaused by:\n    ".intercalate causes)

/-- Works on a job until it ends, with the exit code. -/
partial def work (url : String) (policy : Tracker.Policy) (client : Http.Client) (job : Job) :
    IO UInt32 := do
  let (planned, _) := client.execute ⟨none⟩ job.ask .hang
  let reaction ← (exchangeWithin client.timeout url planned.post).block
  let (done, client) := client.execute ⟨none⟩ job.ask reaction
  for entry in done.log do
    IO.eprintln (entry.level.name ++ " jsonrpc: " ++ entry.message)
  let turn : Turn := match done.reply with
    | some (.ok value) => job.heard policy value
    | some (.error e) => .done (job.failed e)
    | none => .done (job.failed Http.requestFailed)
  match turn with
  | .done ending =>
    for printedLine in ending.lines do
      IO.println printedLine
    match ending.failure with
    | none => return 0
    | some causes =>
      printError causes
      return 1
  | .next lines wait job =>
    for printedLine in lines do
      IO.println printedLine
    if let some d := wait then (pause d).block
    work url policy client job

/-- The environment variables that are looked at. -/
def settingNames : List String :=
  ["PARITY_SIGNER_RPC_URL", "PARITY_SIGNER_TIMEOUT_MS", "PARITY_SIGNER_POLL_INTERVAL_MS",
    "PARITY_SIGNER_MAX_POLLS", "PARITY_SIGNER_DEBUG", "PARITY_SIGNER_PASSWORD"]

def readEnvironment : IO (List (String × String)) :=
  settingNames.filterMapM fun name => do
    return (← IO.getEnv name).map (name, ·)

end Countersign.Cli

open Countersign Countersign.Cli in
def main (args : List String) : IO UInt32 := do
  let set ← readEnvironment
  let env (name : String) : Option String := set.lookup name
  match parse (env "PARITY_SIGNER_PASSWORD") args with
  | .error .help =>
    IO.println usage
    return 0
  | .error .version =>
    IO.println versionText
    return 0
  | .error .wrong =>
    IO.eprintln usage
    return 2
  | .ok invocation =>
    let settings := invocation.settings (Settings.ofEnvironment env)
    match begin (fun _ => false) settings invocation.command with
    | .error causes =>
      printError causes
      return 1
    | .ok (endpoint, job) =>
      work settings.url (policyOf settings) ⟨endpoint.encoder, endpoint.timeout⟩ job
