import Countersign.Cli.Job
import Countersign.Http.Exchange

set_option autoImplicit false

/-!
# The program against a scripted server

The whole run of a command line, when the reactions of the server to its requests are
known in advance. A server without further reactions closes every connection, and a
failed call ends each command, so a run ends unless a request is never answered. Such a
run has made its requests all the same.
-/

namespace Countersign.Cli

/-- What a run leaves behind. -/
structure Run where
  /-- The exit code, none if the run waits for ever. -/
  code : Option Nat
  stdout : String
  /-- The message of the failure with its causes, the outermost first. -/
  failure : Option (List String)
  /-- The requests that reached the server, and the sleeps in between. -/
  acts : List Tracker.Act

def Run.requests (run : Run) : List Rpc.Request := Tracker.requests run.acts

def printed (lines : List String) : String := String.join (lines.map (· ++ "\n"))

def Ending.run (ending : Ending) : Run :=
  ⟨some (if ending.failure.isSome then 1 else 0), printed ending.lines, ending.failure, []⟩

/-- Waits for an answer that never comes. -/
def Run.stuck : Run := ⟨none, "", none, []⟩

/-- A request, with what was printed before the rest and a sleep if there was one. -/
def Run.after (request : Rpc.Request) (lines : List String) (pause : Option Duration)
    (rest : Run) : Run :=
  { rest with
    stdout := printed lines ++ rest.stdout
    acts := .call request :: (pause.map Tracker.Act.sleep).toList ++ rest.acts }

/-- The rest of a job. -/
def runJob (policy : Tracker.Policy) (client : Http.Client) (job : Job) :
    List Http.Reaction → Run
  | [] => (job.failed Http.requestFailed).run.after (client.encoder.envelope job.ask) [] none
  | reaction :: rest =>
    let request := client.encoder.envelope job.ask
    let (exchange, client) := client.execute ⟨none⟩ job.ask reaction
    match exchange.reply with
    | none => Run.stuck.after request [] none
    | some (.error e) => (job.failed e).run.after request [] none
    | some (.ok value) =>
      match job.heard policy value with
      | .done ending => ending.run.after request [] none
      | .next lines pause job => (runJob policy client job rest).after request lines pause

def versionText : String := "parity-signer 0.1.0"

/-- How a run ends without a command; the text of the help is not told. -/
def Halt.run : Halt → Run
  | .help => ⟨some 0, "", none, []⟩
  | .version => ⟨some 0, printed [versionText], none, []⟩
  | .wrong => ⟨some 2, "", none, []⟩

/-- A server that listens at one address; nobody listens anywhere else. -/
structure Server where
  listensAt : String → Bool
  reactions : List Http.Reaction

/-- The run of a whole command line. Where no server listens requests are not received. -/
def rehearse (args : List String) (env : String → Option String) (server : Server) : Run :=
  match parse (env "PARITY_SIGNER_PASSWORD") args with
  | .error halt => halt.run
  | .ok invocation =>
    let settings := invocation.settings (Settings.ofEnvironment env)
    match begin (fun _ => false) settings invocation.command with
    | .error causes => ⟨some 1, "", some causes, []⟩
    | .ok (endpoint, job) =>
      let client : Http.Client := ⟨endpoint.encoder, endpoint.timeout⟩
      let policy := policyOf settings
      if server.listensAt settings.url then runJob policy client job server.reactions
      else { runJob policy client job [] with acts := [] }

end Countersign.Cli
