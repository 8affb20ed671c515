import Countersign.Cli.Rehearsal
import Countersign.Proofs.Polling

set_option autoImplicit false

/-!
# Runs, call by call

A run makes one call after another, and each call gets the next reaction of the server. What
a reply leads to is the next turn of the job. A job that asks again while replies are null is
a wait on the replies of the server, as if they had been laid out in a script. So it makes
calls until the first other reply, or until the policy allows no further one, sleeps between
every two, and goes on with what the last reply means.
-/

namespace Countersign

namespace Http

/-- What a call with so many before it comes back with, none if it waits for ever. A server
without further reactions closes the connection. -/
def answerAt (limit : Option Duration) (reactions : List Reaction) (earlier : Nat) : Option Reply :=
  CallOptions.Moment.look ⟨false, (reactions[earlier]?.getD .close).reply?, limit⟩

theorem answerAt_drop (limit : Option Duration) (reactions : List Reaction) (n earlier : Nat) :
    answerAt limit (reactions.drop n) earlier = answerAt limit reactions (n + earlier) := by
  rw [answerAt, List.getElem?_drop]
  rfl

/-- An answer that is a text is recognised by it. -/
theorem eq_text_of_asString? {answer : Option Reply} {text : String}
    (read : (answer.bind Except.toOption).bind Json.asString? = some text) :
    answer = some (.ok (.str text)) := by
  obtain ⟨value, returned, shown⟩ := Option.bind_eq_some_iff.mp read
  obtain ⟨reply, rfl, kept⟩ := Option.bind_eq_some_iff.mp returned
  cases reply with
  | error e => cases kept
  | ok result =>
    cases kept
    cases value with
    | str other =>
      cases shown
      rfl
    | _ => cases shown

def Client.past (client : Client) (calls : Nat) : Client :=
  { client with encoder := client.encoder.past calls }

@[simp]
theorem Client.past_timeout (client : Client) (calls : Nat) :
    (client.past calls).timeout = client.timeout := rfl

@[simp]
theorem Client.past_zero (client : Client) : client.past 0 = client := by
  simp [past]

@[simp]
theorem Client.past_past (client : Client) (first second : Nat) :
    (client.past first).past second = client.past (first + second) := by
  simp [past]

/-- The replies that come one after the other, up to a call that waits for ever. -/
def replies (limit : Option Duration) : List Reaction → List Reply
  | [] => [.error requestFailed]
  | reaction :: rest =>
    match CallOptions.Moment.look ⟨false, reaction.reply?, limit⟩ with
    | none => []
    | some reply => reply :: replies limit rest

/-- Behind null replies the next one is the next answer, if there is one. -/
theorem replies_of_nulls {limit : Option Duration} {reactions : List Reaction} {n : Nat}
    (silent : ∀ earlier < n, answerAt limit reactions earlier = some (.ok .null)) :
    (replies limit reactions)[n]? = answerAt limit reactions n := by
  induction reactions generalizing n with
  | nil =>
    cases n with
    | zero => rfl
    | succ n => cases silent 0 (Nat.succ_pos n)
  | cons reaction rest ih =>
    rw [replies]
    cases n with
    | zero =>
      change _ = CallOptions.Moment.look ⟨false, reaction.reply?, limit⟩
      cases CallOptions.Moment.look ⟨false, reaction.reply?, limit⟩ <;> rfl
    | succ n =>
      have null : CallOptions.Moment.look ⟨false, reaction.reply?, limit⟩ = some (.ok .null) :=
        silent 0 (Nat.succ_pos n)
      rw [null]
      exact ih fun earlier before => silent (earlier + 1) (Nat.succ_lt_succ before)

def Client.script (client : Client) (reactions : List Reaction) (sent : List Rpc.Request) :
    Script :=
  ⟨client.encoder, replies client.timeout reactions, sent⟩

@[simp]
theorem Client.script_encoder (client : Client) (reactions : List Reaction)
    (sent : List Rpc.Request) : (client.script reactions sent).encoder = client.encoder := rfl

/-- A call that is answered takes one reaction. -/
theorem Client.past_script {client : Client} {reaction : Reaction} {rest : List Reaction}
    {reply : Reply} (answered : answerAt client.timeout (reaction :: rest) 0 = some reply)
    (call : Call) (sent : List Rpc.Request) :
    (client.script (reaction :: rest) sent).past call 1 =
      (client.past 1).script rest (sent ++ client.encoder.requests call 1) := by
  have look : CallOptions.Moment.look ⟨false, reaction.reply?, client.timeout⟩ = some reply :=
    answered
  simp only [script, replies, look]
  rfl

section Scripts

variable {client : Client} {reactions : List Reaction} {n : Nat}
  (silent : ∀ earlier < n, answerAt client.timeout reactions earlier = some (.ok .null))
  (call : Call) (sent : List Rpc.Request)

include silent

theorem Client.replyAt_script :
    Script.replyAt call (client.script reactions sent).replies n =
      (answerAt client.timeout reactions n).getD (.error (Script.silence call)) := by
  rw [Script.replyAt, script, replies_of_nulls silent]

theorem Client.script_nulls :
    ∀ earlier < n, Script.replyAt call (client.script reactions sent).replies earlier =
      .ok .null := by
  intro earlier before
  rw [replyAt_script fun sooner first => silent sooner (Nat.lt_trans first before),
    silent earlier before]
  rfl

omit silent in
theorem Client.replyAt_script_zero :
    Script.replyAt call (client.script reactions sent).replies 0 =
      (answerAt client.timeout reactions 0).getD (.error (Script.silence call)) :=
  replyAt_script (fun _ before => absurd before (Nat.not_lt_zero _)) call sent

end Scripts

end Http

namespace Cli

open Http (answerAt)
open Tracker (Policy Inquiry Act Wait polling)

/-! ### One call -/

def Run.preceded (run : Run) (acts : List Act) : Run := { run with acts := acts ++ run.acts }

@[simp]
theorem Run.preceded_preceded (run : Run) (first second : List Act) :
    (run.preceded second).preceded first = run.preceded (first ++ second) := by
  simp [preceded]

@[simp]
theorem Run.preceded_requests (run : Run) (acts : List Act) :
    (run.preceded acts).requests = Tracker.requests acts ++ run.requests :=
  List.filterMap_append

@[simp]
theorem Run.preceded_code (run : Run) (acts : List Act) :
    (run.preceded acts).code = run.code := rfl

@[simp]
theorem Run.preceded_failure (run : Run) (acts : List Act) :
    (run.preceded acts).failure = run.failure := rfl

@[simp]
theorem Ending.run_requests (ending : Ending) : ending.run.requests = [] := rfl

@[simp]
theorem Run.stuck_requests : Run.stuck.requests = [] := rfl

@[simp]
theorem Run.stuck_code : Run.stuck.code = none := rfl

@[simp]
theorem Run.stuck_failure : Run.stuck.failure = none := rfl

theorem Ending.run_code_iff (ending : Ending) :
    ending.run.code = some 0 ↔ ending.failure = none := by
  cases failed : ending.failure <;> simp [Ending.run, failed]

def Job.turn (policy : Policy) (job : Job) : Reply → Turn
  | .ok value => job.heard policy value
  | .error e => .done (job.failed e)

def Turn.run (policy : Policy) (client : Http.Client) (reactions : List Http.Reaction) : Turn → Run
  | .done ending => ending.run
  | .next lines pause job =>
    let rest := runJob policy client job reactions
    { rest with
      stdout := printed lines ++ rest.stdout
      acts := (pause.map Act.sleep).toList ++ rest.acts }

@[simp]
theorem Turn.run_next_requests (policy : Policy) (client : Http.Client)
    (reactions : List Http.Reaction) (lines : List String) (pause : Option Duration) (job : Job) :
    ((Turn.next lines pause job).run policy client reactions).requests =
      (runJob policy client job reactions).requests := by
  cases pause <;> rfl

@[simp]
theorem Turn.run_next_code (policy : Policy) (client : Http.Client)
    (reactions : List Http.Reaction) (lines : List String) (pause : Option Duration) (job : Job) :
    ((Turn.next lines pause job).run policy client reactions).code =
      (runJob policy client job reactions).code := rfl

theorem runJob_step (policy : Policy) (client : Http.Client) (job : Job)
    (reactions : List Http.Reaction) :
    runJob policy client job reactions =
      Run.preceded ((answerAt client.timeout reactions 0).elim Run.stuck fun reply =>
          (job.turn policy reply).run policy (client.past 1) (reactions.drop 1))
        [.call (client.encoder.envelope job.ask)] := by
  have silent : ∀ (request : Rpc.Request) (run : Run),
      run.after request [] none = run.preceded [.call request] := by
    intro request run
    simp [Run.after, Run.preceded, printed]
  cases reactions with
  | nil => exact silent _ _
  | cons reaction rest =>
    have replied : (client.execute ⟨none⟩ job.ask reaction).1.reply =
        answerAt client.timeout (reaction :: rest) 0 :=
      client.execute_fst_reply ⟨none⟩ job.ask reaction
    have passed : (client.execute ⟨none⟩ job.ask reaction).2 = client.past 1 := rfl
    simp only [runJob, replied, passed]
    cases answerAt client.timeout (reaction :: rest) 0 with
    | none => exact silent _ _
    | some reply =>
      cases reply with
      | error e => exact silent _ _
      | ok value =>
        simp only [Option.elim_some, Job.turn]
        cases job.heard policy value with
        | done ending => exact silent _ _
        | next lines pause job => rfl

/-! ### Asking again and again -/

/-- The first reply that is not null, if the policy allows so many calls. -/
structure FirstAnswer (policy : Policy) (answers : Nat → Option Reply) (n : Nat) : Prop where
  silent : ∀ earlier < n, answers earlier = some (.ok .null)
  answer : answers n ≠ some (.ok .null)
  allowed : policy.Allows (n + 1)

/-- The policy allows no further call and every reply was null. -/
structure Exhausted (policy : Policy) (answers : Nat → Option Reply) (most : UInt32) : Prop where
  budget : policy.maxAttempts = some most
  silent : ∀ earlier < max 1 most.toNat, answers earlier = some (.ok .null)

theorem FirstAnswer.unique {policy : Policy} {answers : Nat → Option Reply} {n m : Nat}
    (first : FirstAnswer policy answers n) (second : FirstAnswer policy answers m) : n = m := by
  rcases Nat.lt_trichotomy n m with before | same | behind
  · exact absurd (second.silent n before) first.answer
  · exact same
  · exact absurd (first.silent m behind) second.answer

theorem Exhausted.not_firstAnswer {policy : Policy} {answers : Nat → Option Reply} {most : UInt32}
    (exhausted : Exhausted policy answers most) (n : Nat) : ¬FirstAnswer policy answers n := by
  intro first
  have within := first.allowed most exhausted.budget
  exact first.answer (exhausted.silent n within)

/-- The server closes the connection at last, so the replies are not null for ever. -/
theorem firstAnswer_or_exhausted (policy : Policy) (limit : Option Duration)
    (reactions : List Http.Reaction) :
    (∃ n, FirstAnswer policy (answerAt limit reactions) n) ∨
      ∃ most, Exhausted policy (answerAt limit reactions) most := by
  have closed : answerAt limit reactions reactions.length ≠ some (.ok .null) := by
    rw [answerAt, List.getElem?_eq_none (Nat.le_refl _)]
    nofun
  rcases policy.first_or_budget (answerAt limit reactions · = some (.ok .null))
    ⟨reactions.length, closed⟩ with
    ⟨n, silent, answer, allowed⟩ | ⟨most, budget, silent⟩
  · exact .inl ⟨n, silent, answer, allowed⟩
  · exact .inr ⟨most, budget, silent⟩

/-- A job that makes the call of an inquiry again until it hears something, and goes on from
there as `close` tells. -/
structure Job.Asks {α : Type} (policy : Policy) (inquiry : Inquiry α) (job : UInt32 → Job)
    (close : Except Failure α → Turn) : Prop where
  ask : ∀ attempts, (job attempts).ask = inquiry.call
  turn : ∀ attempts reply, (job attempts).turn policy reply =
    match inquiry.hear policy attempts reply with
    | .done result => close result
    | .again attempts => .next [] (some policy.interval) (job attempts)

/-- The run that a wait leads to. If the last call waits for ever, so does the run. -/
def waited {α : Type} (policy : Policy) (client : Http.Client) (reactions : List Http.Reaction)
    (close : Except Failure α → Turn) (wait : Wait α) : Run :=
  let calls := (Tracker.requests wait.acts).length
  Run.preceded ((answerAt client.timeout reactions (calls - 1)).elim Run.stuck fun _ =>
      (close wait.result).run policy (client.past calls) (reactions.drop calls))
    wait.acts

theorem waited_preceded {α : Type} {policy : Policy} {client : Http.Client}
    {reaction : Http.Reaction} {rest : List Http.Reaction} {close : Except Failure α → Turn}
    {wait : Wait α} {earlier : Nat} (calls : (Tracker.requests wait.acts).length = earlier + 1)
    (request : Rpc.Request) (time : Duration) :
    waited policy client (reaction :: rest) close (wait.preceded [.call request, .sleep time]) =
      (waited policy (client.past 1) rest close wait).preceded [.call request, .sleep time] := by
  have more : (Tracker.requests (wait.preceded [.call request, .sleep time]).acts).length =
      earlier + 2 := congrArg Nat.succ calls
  simp only [waited, calls, more, Run.preceded_preceded, Http.Client.past_past]
  rw [Nat.add_comm 1]
  rfl

section Asks

variable {α : Type} {policy : Policy} {inquiry : Inquiry α} {job : UInt32 → Job}
  {close : Except Failure α → Turn} (asks : Job.Asks policy inquiry job close)
  {client : Http.Client} {reactions : List Http.Reaction}

include asks

/-- Such a job is the wait on the replies of the server, and what follows it. -/
theorem Job.Asks.runJob_eq_waited (attempts : UInt32) (sent : List Rpc.Request) :
    runJob policy client (job attempts) reactions =
      waited policy client reactions close
        (inquiry.wait policy attempts (client.script reactions sent)) := by
  induction reactions generalizing client attempts sent with
  | nil =>
    rw [inquiry.wait_step, Http.Client.replyAt_script_zero, runJob_step, asks.ask]
    simp only [asks.turn, Http.answerAt]
    rfl
  | cons reaction rest ih =>
    rw [inquiry.wait_step, Http.Client.replyAt_script_zero, runJob_step, asks.ask]
    cases answered : answerAt client.timeout (reaction :: rest) 0 with
    | none => simp [Inquiry.hear, waited, answered]
    | some reply =>
      simp only [Option.getD_some, Option.elim_some, asks.turn]
      cases inquiry.hear policy attempts reply with
      | done result => simp [waited, answered]
      | again more =>
        obtain ⟨earlier, calls⟩ := inquiry.exists_calls policy more
          ((client.script (reaction :: rest) sent).past inquiry.call 1)
        simp only
        rw [waited_preceded calls, Http.Client.past_script answered, ← ih]
        simp [Turn.run, Run.preceded, printed]

theorem Job.Asks.runJob_answered {n : Nat}
    (first : FirstAnswer policy (answerAt client.timeout reactions) n) :
    runJob policy client (job 0) reactions =
      Run.preceded ((answerAt client.timeout reactions n).elim Run.stuck fun reply =>
          (close (inquiry.meaning reply)).run policy (client.past (n + 1)) (reactions.drop (n + 1)))
        (polling policy.interval (client.encoder.requests inquiry.call (n + 1))) := by
  have told := Http.Client.replyAt_script first.silent inquiry.call []
  have answer : Script.replyAt inquiry.call (client.script reactions []).replies n ≠
      .ok .null := by
    rw [told]
    cases answered : answerAt client.timeout reactions n with
    | none => nofun
    | some reply =>
      intro null
      exact first.answer (answered.trans (congrArg some null))
  rw [asks.runJob_eq_waited 0 [], inquiry.wait_answered policy
    (Http.Client.script_nulls first.silent _ _) answer first.allowed]
  simp only [waited, Tracker.requests_polling, Rpc.Encoder.length_requests, told, Nat.add_sub_cancel]
  cases answerAt client.timeout reactions n <;> rfl

theorem Job.Asks.runJob_exhausted {most : UInt32}
    (exhausted : Exhausted policy (answerAt client.timeout reactions) most) :
    ∃ limit, runJob policy client (job 0) reactions =
      Run.preceded ((close (.error (.call (.timeout limit)))).run policy
          (client.past (max 1 most.toNat)) (reactions.drop (max 1 most.toNat)))
        (polling policy.interval (client.encoder.requests inquiry.call (max 1 most.toNat))) := by
  have last : answerAt client.timeout reactions (max 1 most.toNat - 1) = some (.ok .null) :=
    exhausted.silent _ (by omega)
  rw [asks.runJob_eq_waited 0 [], inquiry.wait_exhausted policy exhausted.budget
    (Http.Client.script_nulls exhausted.silent _ _)]
  simp only [waited, Tracker.requests_polling, Rpc.Encoder.length_requests, last]
  exact ⟨_, rfl⟩

end Asks

/-! ### The whole program -/

theorem requestId_of_none {text : String} (unread : Quantity.ofText? text = none) :
    ∃ causes, requestId text = .error causes := by
  simp [requestId, RequestId.ofJson, RequestId.ofJson?, Quantity.ofJson?, unread]

theorem requestId_of_some {text : String} {n : UInt64} (read : Quantity.ofText? text = some n) :
    requestId text = .ok ⟨n⟩ := by
  simp [requestId, RequestId.ofJson, RequestId.ofJson?, Quantity.ofJson?, read]

def Invocation.allSettings (invocation : Invocation) (env : String → Option String) : Settings :=
  invocation.settings (Settings.ofEnvironment env)

/-- The command line is understood, and names an address where a server listens for HTTP. -/
structure Served (args : List String) (env : String → Option String) (server : Server)
    (invocation : Invocation) : Prop where
  parsed : parse (env "PARITY_SIGNER_PASSWORD") args = .ok invocation
  http : Endpoint.carrier? (invocation.allSettings env).url = some .http
  listens : server.listensAt (invocation.allSettings env).url = true

/-- A command whose arguments cannot be read fails; any other is at work until it ends. -/
theorem Served.rehearse_eq {args : List String} {env : String → Option String} {server : Server}
    {invocation : Invocation} (served : Served args env server invocation) :
    let settings := invocation.allSettings env
    rehearse args env server =
      match invocation.command.job with
      | .error causes => ⟨some 1, "", some causes, []⟩
      | .ok job =>
        runJob (policyOf settings) ⟨Rpc.Encoder.new.setDebug settings.debug, settings.requestTimeout⟩
          job server.reactions := by
  intro settings
  have connected : Endpoint.connect (fun _ => false) settings =
      .ok ⟨.http, settings.url, Rpc.Encoder.new.setDebug settings.debug, settings.requestTimeout⟩ := by
    rw [Endpoint.connect, served.http]
  have listens : server.listensAt settings.url = true := served.listens
  have begun : begin (fun _ => false) settings invocation.command =
      invocation.command.job.map fun job =>
        (⟨.http, settings.url, Rpc.Encoder.new.setDebug settings.debug, settings.requestTimeout⟩, job) := by
    rw [begin, connected]
    cases invocation.command.job <;> rfl
  simp only [rehearse, served.parsed]
  rw [← Invocation.allSettings, begun]
  cases invocation.command.job with
  | error causes => rfl
  | ok job => exact if_pos listens

end Cli

end Countersign
