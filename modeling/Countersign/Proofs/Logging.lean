import Countersign.Proofs.Socket.Accounting
import Countersign.Proofs.Transports
import Mathlib.Data.List.Basic

set_option autoImplicit false

/-!
# Which failures the log tells of

While debugging is on, the log has every envelope that is sent. It does not have every
failure. Over HTTP it has those that the server or the node has told, and none that was found
on the way: an exchange that breaks off, an answer that cannot be read, a time limit that runs
out. On a socket it has the failure of every call that has entered the table, and none of a
call that finds the connection closed.
-/

namespace Countersign

namespace Rpc

structure FailedCall where
  method : String
  error : CallError

def FailedCall.line (failed : FailedCall) : LogLine :=
  ⟨.error, failed.method ++ ": " ++ failed.error.message⟩

/-- The log has a debug line for each body and an error line for each of the failed calls, in
their order, and no other lines. -/
structure Accounts (log : List LogLine) (bodies : List String) (failures : List FailedCall) :
    Prop where
  bodies : log.filter (·.level = .debug) = bodies.map (LogLine.mk .debug)
  failures : log.filter (·.level = .error) = failures.map FailedCall.line

theorem accounts_nil : Accounts [] [] [] := ⟨rfl, rfl⟩

section Accounts

variable {log : List LogLine} {bodies : List String}

theorem Accounts.append {more : List LogLine} {others : List String}
    {failures later : List FailedCall} (first : Accounts log bodies failures)
    (second : Accounts more others later) :
    Accounts (log ++ more) (bodies ++ others) (failures ++ later) where
  bodies := by rw [List.filter_append, first.bodies, second.bodies, List.map_append]
  failures := by rw [List.filter_append, first.failures, second.failures, List.map_append]

/-- A log that has the lines of some failures has those of all only if these are all. -/
theorem Accounts.all_iff {α : Type} {failures : List α} {told : α → Bool} {failed : α → FailedCall}
    (accounts : Accounts log bodies ((failures.filter told).map failed)) :
    Accounts log bodies (failures.map failed) ↔ ∀ failure ∈ failures, told failure = true := by
  rw [← List.filter_eq_self]
  constructor
  · intro all
    have same := congrArg List.length (accounts.failures.symm.trans all.failures)
    simp only [List.length_map] at same
    exact List.filter_sublist.eq_of_length same
  · intro same
    rwa [same] at accounts

end Accounts

variable {encoder : Encoder} (debugging : encoder.debug = true)

include debugging in
theorem Encoder.accounts_log (body : String) : Accounts (encoder.log body) [body] [] := by
  rw [Encoder.log, Encoder.report, if_pos debugging]
  exact ⟨rfl, rfl⟩

include debugging in
theorem Encoder.accounts_failed (method : String) (e : CallError) :
    Accounts (encoder.failed method e) [] [⟨method, e⟩] := by
  rw [Encoder.failed, Encoder.error, Encoder.report, if_pos debugging]
  exact ⟨rfl, rfl⟩

end Rpc

open Rpc (FailedCall Accounts)

/-! ### Over HTTP -/

namespace Http

structure Errand where
  call : Call
  options : CallOptions
  reaction : Reaction

/-- The errands of a client one after the other, each with its exchange. -/
def Client.course (client : Client) : List Errand → List (Errand × Exchange)
  | [] => []
  | errand :: rest =>
    let (exchange, next) := client.execute errand.options errand.call errand.reaction
    (errand, exchange) :: next.course rest

def failure? : Errand × Exchange → Option FailedCall
  | (errand, exchange) =>
    match exchange.reply with
    | some (.error e) => some ⟨errand.call.method, e⟩
    | _ => none

def isTold : CallError → Bool
  | .http _ _ => true
  | .rpc _ => true
  | _ => false

theorem isTold_iff {e : CallError} :
    isTold e = true ↔ (∃ status reason, e = .http status reason) ∨ ∃ error, e = .rpc error := by
  cases e <;> simp [isTold]

theorem not_isTold_of_ofMembers {members : List (String × Json)} {e : CallError}
    (unread : Rpc.Response.ofMembers members = .error e) : isTold e = false := by
  unfold Rpc.Response.ofMembers at unread
  split at unread
  · cases unread
  · split at unread
    · cases unread
    · cases unread
      rfl

/-- That an answer cannot be read is told by nobody. -/
theorem not_isTold_of_decode {text : String} {e : CallError}
    (unread : Rpc.Response.decode text = .error e) : isTold e = false := by
  unfold Rpc.Response.decode at unread
  split at unread
  · next value _ =>
    cases value with
    | obj members => exact not_isTold_of_ofMembers unread
    | _ =>
      cases unread
      rfl
  · cases unread
    rfl

/-- What a call logs when it has come back. -/
def told (tell : CallError → List Rpc.LogLine) : Option Reply → List Rpc.LogLine
  | some (.error e) => if isTold e then tell e else []
  | _ => []

/-- Only a failure that the server or the node has told is logged. -/
theorem Reaction.outcome_snd (tell : CallError → List Rpc.LogLine) (reaction : Reaction) :
    (reaction.outcome tell).2 = told tell reaction.reply? := by
  cases reaction with
  | response status body complete =>
    simp only [reply?, outcome]
    split
    · rfl
    · cases complete with
      | true =>
        cases decoded : Rpc.Response.decode (Utf8.decodeLossy body) with
        | error e => simp [told, not_isTold_of_decode decoded]
        | ok answer =>
          simp only [Rpc.Response.reply]
          cases answer.outcome <;> rfl
      | false => rfl
  | close => rfl
  | hang => rfl

theorem accounts_execute {client : Client} (debugging : client.encoder.debug = true)
    (errand : Errand) :
    let exchange := (client.execute errand.options errand.call errand.reaction).1
    Accounts exchange.log [exchange.post.body]
      (([(errand, exchange)].filterMap failure?).filter (isTold ·.error)) := by
  intro exchange
  have sent := Rpc.Encoder.accounts_log debugging exchange.post.body
  have logged : exchange.log = client.encoder.log exchange.post.body ++
      told (client.encoder.failed errand.call.method) errand.reaction.reply? := by
    rw [← Reaction.outcome_snd]
    rfl
  have replied : exchange.reply = CallOptions.Moment.look ⟨false, errand.reaction.reply?,
      (errand.options.orDefault client.timeout).timeout⟩ :=
    client.execute_fst_reply errand.options errand.call errand.reaction
  rw [logged]
  refine sent.append ?_
  cases answer : errand.reaction.reply? with
  | none =>
    -- whatever comes back is that the time is up
    have silent : ([(errand, exchange)].filterMap failure?).filter (isTold ·.error) = [] := by
      cases limit : (errand.options.orDefault client.timeout).timeout <;>
        simp [failure?, replied, answer, limit, CallOptions.Moment.look, isTold]
    rw [silent]
    exact Rpc.accounts_nil
  | some reply =>
    have back : exchange.reply = some reply := by rw [replied, answer]; rfl
    cases reply with
    | ok value =>
      simp only [failure?, back, List.filterMap_cons, List.filterMap_nil, List.filter_nil]
      exact Rpc.accounts_nil
    | error e =>
      simp only [failure?, back, List.filterMap_cons, List.filterMap_nil, List.filter_cons,
        List.filter_nil, told]
      split
      · exact Rpc.Encoder.accounts_failed debugging _ e
      · exact Rpc.accounts_nil

theorem accounts_course {client : Client} (debugging : client.encoder.debug = true)
    (errands : List Errand) :
    Accounts ((client.course errands).flatMap (·.2.log))
      ((client.course errands).map (·.2.post.body))
      (((client.course errands).filterMap failure?).filter (isTold ·.error)) := by
  induction errands generalizing client with
  | nil => exact Rpc.accounts_nil
  | cons errand rest ih =>
    have first := accounts_execute debugging errand
    have later := @ih (client.execute errand.options errand.call errand.reaction).2 debugging
    have both := first.append later
    rw [← List.filter_append, ← List.filterMap_append] at both
    exact both

theorem accounts_course_iff {client : Client} (debugging : client.encoder.debug = true)
    (errands : List Errand) :
    let course := client.course errands
    let failures := course.filterMap failure?
    Accounts (course.flatMap (·.2.log)) (course.map (·.2.post.body)) failures ↔
      ∀ failed ∈ failures, isTold failed.error = true := by
  intro course failures
  have accounts := accounts_course debugging errands
  rw [← List.map_id (List.filter _ _)] at accounts
  simpa only [List.map_id] using accounts.all_iff

end Http

/-! ### On a socket -/

namespace Socket

open Std

def Report.body? : Report → Option String
  | .started _ encoded => some encoded.body
  | _ => none

def begun? (ticket : Nat) : Event × Report → Option String
  | (.start call _ _, .started given _) => if given = ticket then some call.method else none
  | _ => none

def methodOf? (trace : List (Event × Report)) (ticket : Nat) : Option String :=
  trace.findSome? (begun? ticket)

def Report.error? : Report → Option (Option Nat × CallError)
  | .ended ticket (.error e) => some (ticket, e)
  | _ => none

/-- The method of a call that comes back at an event: the one that was started under its ticket,
or else the one that is to be started. -/
def returned? (method? : Nat → Option String) (event : Event) : Option Nat → Option String
  | some ticket => method? ticket
  | none =>
    match event with
    | .start call _ _ => some call.method
    | _ => none

def failure? (method? : Nat → Option String) (entry : Event × Report) :
    Option (Option Nat × FailedCall) :=
  entry.2.error?.map fun (ticket, e) =>
    (ticket, ⟨(returned? method? entry.1 ticket).getD "", e⟩)

/-- The calls of a trace that have failed, in the order in which they came back. -/
def failures (trace : List (Event × Report)) : List (Option Nat × FailedCall) :=
  trace.filterMap (failure? (methodOf? trace))

/-- No call is started on a connection that has been shut down. -/
def Timely (events : List Event) : Prop :=
  ∀ before call options abortable after, events = before ++ .start call options abortable :: after →
    ∀ failure, .shutDown failure ∉ before

/-! ### What a step reports and logs -/

/-- The next socket has no calls but those of the socket, under the same tickets. -/
structure Keeps (s next : Socket) : Prop where
  debug : next.encoder.debug = s.encoder.debug
  nextTicket : next.nextTicket = s.nextTicket
  methods : ∀ (ticket : Nat) (w : Waiting), next.calls[ticket]? = some w →
    s.calls[ticket]?.map Waiting.method = some w.method

theorem keeps_self (s : Socket) : s.Keeps s where
  debug := rfl
  nextTicket := rfl
  methods ticket w live := by rw [live]; rfl

theorem keeps_settle (s : Socket) (result : List Delivery × Connection) :
    s.Keeps (s.settle result) where
  debug := by rw [settle, foldl_deliver_frame]
  nextTicket := settle_nextTicket s result
  methods ticket w live := by
    rw [settle, getElem?_foldl_deliver] at live
    obtain ⟨earlier, lived, rfl⟩ := Option.map_eq_some_iff.mp live
    rw [lived]
    rfl

theorem keeps_forget (s : Socket) (gone : Nat) (id : UInt64) : s.Keeps (s.forget gone id) where
  debug := (keeps_settle _ _).debug
  nextTicket := (keeps_settle _ _).nextTicket
  methods ticket w live := by
    have left := (keeps_settle _ _).methods ticket w live
    simp only [ExtTreeMap.getElem?_erase] at left
    split at left
    · cases left
    · exact left

theorem keeps_abort (s : Socket) (ticket : Nat) : s.Keeps (s.step (.abort ticket)).2.2 where
  debug := rfl
  nextTicket := rfl
  methods other w live := by
    simp only [step, getElem?_modify_calls] at live
    split at live
    · obtain ⟨earlier, lived, rfl⟩ := Option.map_eq_some_iff.mp live
      rw [lived]
      rfl
    · rw [live]
      rfl

def Report.isQuiet : Report → Bool
  | .started _ _ | .ended _ _ => false
  | _ => true

inductive Logs (s : Socket) : Event → Report → List Rpc.LogLine → Socket → Prop where
  | refused {call : Call} {options : CallOptions} {abortable : Bool} :
      s.connection.connected = false →
      Logs s (.start call options abortable) (.ended none (.error .connectionClosed)) [] s
  | entered {call : Call} {options : CallOptions} {abortable : Bool} {begun : Socket}
      {w : Waiting} :
      s.connection.connected = true → w.method = call.method →
      Keeps { s with encoder := s.encoder.advance, nextTicket := s.nextTicket + 1 } begun →
      Logs s (.start call options abortable) (.started s.nextTicket (s.encoder.encode call).1)
        (s.encoder.log (s.encoder.encode call).1.body)
        { begun with calls := begun.calls.insert s.nextTicket w }
  | ended {ticket : Nat} {expired : Bool} {w : Waiting} {reply : Reply} {next : Socket} :
      s.calls[ticket]? = some w → s.Keeps next →
      Logs s (.poll ticket expired) (.ended (some ticket) reply) (s.log w.method reply) next
  | quiet {event : Event} {report : Report} {next : Socket} :
      event.isStart = false → report.isQuiet = true → s.Keeps next → Logs s event report [] next

theorem step_logs {s : Socket} (unsealed : s.connection.sealed = !s.connection.connected)
    (event : Event) : Logs s event (s.step event).1 (s.step event).2.1 (s.step event).2.2 := by
  cases event with
  | start call options abortable =>
    cases connected : s.connection.connected with
    | false =>
      have closed : s.step (.start call options abortable) =
          (.ended none (.error .connectionClosed), [], s) := by simp [step, start, connected]
      rw [closed]
      exact .refused connected
    | true =>
      rw [connected] at unsealed
      simp only [step, start, connected, if_true, Rpc.Encoder.encode, Connection.register, unsealed]
      exact .entered connected rfl (keeps_settle _ _)
  | text frame | binary frame | shutDown failure => exact .quiet rfl rfl (keeps_settle s _)
  | poll ticket expired =>
    simp only [step, poll]
    split
    · exact .quiet rfl rfl (keeps_self s)
    · next w live =>
      split
      · exact .quiet rfl rfl (keeps_self s)
      · exact .ended live (keeps_forget s ticket w.id)
  | abort ticket => exact .quiet rfl rfl (keeps_abort s ticket)
  | drop ticket =>
    simp only [step]
    split
    · exact .quiet rfl rfl (keeps_self s)
    · exact .quiet rfl rfl (keeps_forget s ticket _)

theorem sealed_after (debug : Bool) (timeout : Option Duration) (events : List Event) :
    ((new debug timeout).after events).connection.sealed =
      !((new debug timeout).after events).connection.connected := by
  have mirrors := (mirrors_new debug timeout).after Line.accounted_new events
  rw [mirrors.connection]
  exact (Line.accounted_new.performAll _).sealed

/-! ### The methods of the calls in a trace -/

theorem methodOf?_snoc (trace : List (Event × Report)) (entry : Event × Report) (ticket : Nat) :
    methodOf? (trace ++ [entry]) ticket = (methodOf? trace ticket).or (begun? ticket entry) := by
  simp [methodOf?, List.findSome?_append]

/-- The trace tells the methods of all calls that have been started so far. -/
structure Recorded (s : Socket) (trace : List (Event × Report)) : Prop where
  debugging : s.encoder.debug = true
  live : ∀ (ticket : Nat) (w : Waiting), s.calls[ticket]? = some w →
    methodOf? trace ticket = some w.method
  ended : ∀ event ticket reply, (event, Report.ended (some ticket) reply) ∈ trace →
    (methodOf? trace ticket).isSome = true
  fresh : ∀ ticket, s.nextTicket ≤ ticket → methodOf? trace ticket = none

theorem recorded_new (timeout : Option Duration) : Recorded (new true timeout) [] where
  debugging := rfl
  live := by simp [new]
  ended := by simp
  fresh _ _ := rfl

section Recorded

variable {s next : Socket} {trace : List (Event × Report)} {event : Event} {report : Report}
  {lines : List Rpc.LogLine}

theorem begun?_of_ended (ticket : Nat) (event : Event) (other : Option Nat) (reply : Reply) :
    begun? ticket (event, .ended other reply) = none := by
  cases event <;> rfl

theorem begun?_of_quiet {report : Report} (quiet : report.isQuiet = true) (ticket : Nat)
    (event : Event) : begun? ticket (event, report) = none := by
  cases event <;> cases report <;> first | rfl | cases quiet

/-- Nothing starts, and the calls that are left are told of already. -/
theorem Recorded.keep (recorded : Recorded s trace) (keeps : s.Keeps next)
    (idle : ∀ ticket, begun? ticket (event, report) = none)
    (known : ∀ ticket reply, report = .ended (some ticket) reply →
      (methodOf? trace ticket).isSome = true) :
    Recorded next (trace ++ [(event, report)]) := by
  have same : ∀ ticket, methodOf? (trace ++ [(event, report)]) ticket = methodOf? trace ticket := by
    intro ticket
    rw [methodOf?_snoc, idle, Option.or_none]
  refine ⟨keeps.debug.trans recorded.debugging, ?_, ?_, ?_⟩
  · intro ticket w live
    obtain ⟨earlier, lived, method⟩ := Option.map_eq_some_iff.mp (keeps.methods ticket w live)
    rw [same, recorded.live ticket earlier lived, method]
  · intro event ticket reply membership
    rw [same]
    rcases List.mem_append.mp membership with old | now
    · exact recorded.ended event ticket reply old
    · cases List.mem_singleton.mp now
      exact known ticket reply rfl
  · intro ticket unused
    rw [same]
    exact recorded.fresh ticket (keeps.nextTicket ▸ unused)

/-- A call starts under the next ticket. -/
theorem Recorded.enter (recorded : Recorded s trace) {call : Call} {options : CallOptions}
    {abortable : Bool} {begun : Socket} {w : Waiting} (method : w.method = call.method)
    (keeps : Keeps { s with encoder := s.encoder.advance, nextTicket := s.nextTicket + 1 } begun) :
    Recorded { begun with calls := begun.calls.insert s.nextTicket w }
      (trace ++ [(.start call options abortable,
        .started s.nextTicket (s.encoder.encode call).1)]) := by
  have starts : ∀ ticket, begun? ticket (.start call options abortable,
      .started s.nextTicket (s.encoder.encode call).1) =
        if s.nextTicket = ticket then some call.method else none := fun _ => rfl
  refine ⟨keeps.debug.trans recorded.debugging, ?_, ?_, ?_⟩
  · intro ticket held live
    rw [methodOf?_snoc, starts]
    simp only [ExtTreeMap.getElem?_insert, Std.compare_eq_iff_eq] at live
    split at live
    · next same =>
      cases live
      -- the ticket is new, so the trace has no other call under it
      rw [recorded.fresh ticket (Nat.le_of_eq same), if_pos same, method]
      rfl
    · obtain ⟨earlier, lived, kept⟩ := Option.map_eq_some_iff.mp (keeps.methods ticket held live)
      rw [recorded.live ticket earlier lived, kept]
      rfl
  · intro event ticket reply membership
    rcases List.mem_append.mp membership with old | now
    · rw [methodOf?_snoc, Option.isSome_or, recorded.ended event ticket reply old]
      rfl
    · cases List.mem_singleton.mp now
  · intro ticket unused
    have later : s.nextTicket + 1 ≤ ticket :=
      Nat.le_trans (Nat.le_of_eq keeps.nextTicket.symm) unused
    rw [methodOf?_snoc, recorded.fresh ticket (by omega), starts, if_neg (by omega)]
    rfl

theorem Recorded.step (recorded : Recorded s trace) (logs : Logs s event report lines next) :
    Recorded next (trace ++ [(event, report)]) := by
  cases logs with
  | refused => exact recorded.keep (keeps_self s) (begun?_of_ended · _ _ _) nofun
  | entered _ method keeps => exact recorded.enter method keeps
  | @ended ticket _ w reply _ live keeps =>
    refine recorded.keep keeps (begun?_of_ended · _ _ _) ?_
    rintro _ _ ⟨⟩
    rw [recorded.live ticket w live]
    rfl
  | quiet _ silent keeps =>
    refine recorded.keep keeps (begun?_of_quiet silent · event) ?_
    rintro ticket reply rfl
    cases silent

theorem recorded_after (timeout : Option Duration) (events : List Event) :
    Recorded ((new true timeout).after events) ((new true timeout).trace events) := by
  induction events using List.reverseRecOn with
  | nil => exact recorded_new timeout
  | append_singleton events event ih =>
    rw [after_snoc, trace_snoc]
    exact ih.step (step_logs (sealed_after true timeout events) event)

/-- What has failed before is told as before. -/
theorem Recorded.failures_snoc (recorded : Recorded s trace) (entry : Event × Report) :
    failures (trace ++ [entry]) =
      failures trace ++ [entry].filterMap (failure? (methodOf? (trace ++ [entry]))) := by
  rw [failures, List.filterMap_append]
  congr 1
  apply List.filterMap_congr
  rintro ⟨event, report⟩ membership
  cases report with
  | ended other reply =>
    cases reply with
    | ok value => rfl
    | error e =>
      cases other with
      | none => rfl
      | some ticket =>
        -- whoever has ended was started before, so one more entry does not change its method
        obtain ⟨method, found⟩ := Option.isSome_iff_exists.mp
          (recorded.ended event ticket _ membership)
        simp [failure?, Report.error?, returned?, methodOf?_snoc, found]
  | _ => rfl

/-- Whoever has ended with an error under a ticket is in the log. -/
theorem Recorded.accounts_step (recorded : Recorded s trace)
    (logs : Logs s event report lines next) :
    let entry := (event, report)
    Accounts lines ([report].filterMap Report.body?)
      ((([entry].filterMap (failure? (methodOf? (trace ++ [entry])))).filter (·.1.isSome)).map
        Prod.snd) := by
  cases logs with
  | refused => exact Rpc.accounts_nil
  | entered => exact Rpc.Encoder.accounts_log recorded.debugging _
  | @ended ticket expired w reply _ live keeps =>
    have method : methodOf? (trace ++ [(.poll ticket expired, .ended (some ticket) reply)]) ticket =
        some w.method := by
      rw [methodOf?_snoc, recorded.live ticket w live]
      rfl
    cases reply with
    | ok value => exact Rpc.accounts_nil
    | error e =>
      simp only [List.filterMap_cons, List.filterMap_nil, failure?, Report.error?, returned?,
        method, Report.body?, Option.map_some]
      exact Rpc.Encoder.accounts_failed recorded.debugging w.method e
  | quiet _ silent keeps =>
    cases report <;> first | exact Rpc.accounts_nil | cases silent

end Recorded

theorem log_snoc (s : Socket) (events : List Event) (event : Event) :
    (s.run (events ++ [event])).2.1 = (s.run events).2.1 ++ ((s.after events).step event).2.1 := by
  induction events generalizing s with
  | nil => exact List.append_nil _
  | cons first rest ih =>
    exact (congrArg ((s.step first).2.1 ++ ·) (ih (s.step first).2.2)).trans
      (List.append_assoc _ _ _).symm

theorem accounts_run (timeout : Option Duration) (events : List Event) :
    let s := new true timeout
    Accounts (s.run events).2.1 ((s.run events).1.filterMap Report.body?)
      (((failures (s.trace events)).filter (·.1.isSome)).map Prod.snd) := by
  intro s
  induction events using List.reverseRecOn with
  | nil => exact Rpc.accounts_nil
  | append_singleton events event ih =>
    have recorded := recorded_after timeout events
    have logs := step_logs (sealed_after true timeout events) event
    have both := ih.append (recorded.accounts_step logs)
    rw [log_snoc, reports_snoc, trace_snoc, recorded.failures_snoc]
    simpa only [List.filterMap_append, List.filter_append, List.map_append] using both

/-! ### Calls that find the connection closed -/

theorem Connection.Settles.connected_eq {c : Connection} {result : List Delivery × Connection}
    (settles : c.Settles result) : result.2.connected = c.connected := by
  cases settles <;> rfl

theorem connected_forget (s : Socket) (ticket : Nat) (id : UInt64) :
    (s.forget ticket id).connection.connected = s.connection.connected := by
  rw [forget, settle_connection]
  exact (s.connection.release_settles id).connected_eq

theorem connected_step {s : Socket} (unsealed : s.connection.sealed = !s.connection.connected)
    (event : Event) :
    (s.step event).2.2.connection.connected = true ↔
      s.connection.connected = true ∧ ∀ failure, event ≠ .shutDown failure := by
  cases event with
  | start call options abortable =>
    cases connected : s.connection.connected <;>
      simp [step, start, connected, Connection.register, unsealed, settle_connection]
  | text frame =>
    simp [step, settle_connection, (s.connection.dispatch_settles frame).connected_eq]
  | binary frame =>
    simp [step, settle_connection, (s.connection.dispatchBytes_settles frame).connected_eq]
  | poll ticket expired =>
    simp only [step, poll]
    repeat' split
    all_goals simp [connected_forget]
  | abort ticket => simp [step]
  | drop ticket =>
    simp only [step]
    split
    all_goals simp [connected_forget]
  | shutDown failure =>
    cases connected : s.connection.connected <;>
      simp [step, settle_connection, Connection.shutDown, connected]

theorem connected_after (debug : Bool) (timeout : Option Duration) (events : List Event) :
    ((new debug timeout).after events).connection.connected = true ↔
      ∀ failure, .shutDown failure ∉ events := by
  induction events using List.reverseRecOn with
  | nil => simp [after, run, new, Connection.new]
  | append_singleton events event ih =>
    rw [after_snoc, connected_step (sealed_after debug timeout events), ih, ← forall_and]
    simp [eq_comm]

theorem timely_snoc {events : List Event} {event : Event} :
    Timely (events ++ [event]) ↔ Timely events ∧ (∀ call options abortable,
      event = .start call options abortable → ∀ failure, .shutDown failure ∉ events) := by
  constructor
  · intro timely
    refine ⟨?_, ?_⟩
    · rintro before call options abortable after rfl
      exact timely before call options abortable (after ++ [event]) (by simp)
    · rintro call options abortable rfl
      exact timely events call options abortable [] rfl
  · rintro ⟨timely, last⟩ before call options abortable after split
    rcases append_singleton_eq_append_cons_iff.mp split with ⟨rfl, rfl, rfl⟩ | ⟨rest, rfl, rfl⟩
    · exact last call options abortable rfl
    · exact timely before call options abortable rest rfl

/-- A step reports the failure of a call without a ticket exactly if a call is started that
finds the connection closed. -/
theorem Logs.ticketed_iff {s next : Socket} {event : Event} {report : Report}
    {lines : List Rpc.LogLine} (logs : Logs s event report lines next)
    (method? : Nat → Option String) :
    (∀ failed ∈ [(event, report)].filterMap (failure? method?), failed.1.isSome = true) ↔
      ∀ call options abortable, event = .start call options abortable →
        s.connection.connected = true := by
  cases logs with
  | refused closed => simp [failure?, Report.error?, closed]
  | entered connected => simp [failure?, Report.error?, connected]
  | @ended _ _ _ reply => cases reply <;> simp [failure?, Report.error?]
  | quiet other silent =>
    have none : report.error? = none := by
      cases report <;> first | rfl | cases silent
    refine iff_of_true (by simp [failure?, none]) ?_
    rintro call options abortable rfl
    cases other

theorem ticketed_iff_timely (timeout : Option Duration) (events : List Event) :
    (∀ failed ∈ failures ((new true timeout).trace events), failed.1.isSome = true) ↔
      Timely events := by
  induction events using List.reverseRecOn with
  | nil => simp [trace, failures, Timely]
  | append_singleton events event ih =>
    have logs := step_logs (sealed_after true timeout events) event
    rw [trace_snoc, (recorded_after timeout events).failures_snoc, List.forall_mem_append, ih,
      logs.ticketed_iff, connected_after, timely_snoc]

theorem accounts_run_iff (timeout : Option Duration) (events : List Event) :
    let s := new true timeout
    Accounts (s.run events).2.1 ((s.run events).1.filterMap Report.body?)
      ((failures (s.trace events)).map Prod.snd) ↔ Timely events :=
  (accounts_run timeout events).all_iff.trans (ticketed_iff_timely timeout events)

end Socket

/-- While debugging is on, the log has every request that is sent, but it does not have every
failure. Over HTTP it has those told by a status or by an error object, so it has all exactly if
there are no others. On a socket it has those of all calls that got a ticket, so it has all
exactly if no call is started when the connection has been shut down. -/
theorem failures_logged_iff_told (timeout : Option Duration) :
    (∀ errands : List Http.Errand,
      let course := Http.Client.course ⟨Rpc.Encoder.new.setDebug true, timeout⟩ errands
      let log := course.flatMap (·.2.log)
      let bodies := course.map (·.2.post.body)
      let failures := course.filterMap Http.failure?
      Accounts log bodies (failures.filter (Http.isTold ·.error)) ∧
        (Accounts log bodies failures ↔ ∀ failed ∈ failures,
          (∃ status reason, failed.error = .http status reason) ∨
            ∃ error, failed.error = .rpc error)) ∧
      ∀ events : List Socket.Event,
        let s := Socket.new true timeout
        let log := (s.run events).2.1
        let bodies := (s.run events).1.filterMap Socket.Report.body?
        let failures := Socket.failures (s.trace events)
        Accounts log bodies ((failures.filter (·.1.isSome)).map Prod.snd) ∧
          (Accounts log bodies (failures.map Prod.snd) ↔ Socket.Timely events) := by
  refine ⟨?_, ?_⟩
  · intro errands course log bodies failures
    refine ⟨Http.accounts_course rfl errands, (Http.accounts_course_iff rfl errands).trans ?_⟩
    simp only [Http.isTold_iff]
    exact Iff.rfl
  · intro events s log bodies failures
    exact ⟨Socket.accounts_run timeout events, Socket.accounts_run_iff timeout events⟩

/-- A status, and a call that waits when the connection is shut down: both failures are in the
log. -/
theorem status_and_shutDown_logged :
    let call : Call := ⟨"eth_blockNumber", []⟩
    let course := Http.Client.course ⟨Rpc.Encoder.new.setDebug true, none⟩
      [⟨call, ⟨none⟩, .response 503 [] true⟩]
    let s := Socket.new true none
    let events : List Socket.Event := [.start call ⟨none⟩ false, .shutDown none, .poll 0 false]
    Accounts (course.flatMap (·.2.log)) (course.map (·.2.post.body))
        [⟨call.method, .http 503 "Service Unavailable"⟩] ∧
      Accounts (s.run events).2.1 ((s.run events).1.filterMap Socket.Report.body?)
        [⟨call.method, .connectionClosed⟩] := by
  intro call course s events
  obtain ⟨http, socket⟩ := failures_logged_iff_told none
  exact ⟨(http [⟨call, ⟨none⟩, .response 503 [] true⟩]).1, (socket events).1⟩

/-- An answer that is no object, and a call on a connection that has been shut down: both calls
fail, and neither failure is in the log. -/
theorem unread_and_refused_not_logged :
    let call : Call := ⟨"eth_blockNumber", []⟩
    let course := Http.Client.course ⟨Rpc.Encoder.new.setDebug true, none⟩
      [⟨call, ⟨none⟩, .response 200 (Utf8.encode "[]") true⟩]
    let s := Socket.new true none
    let events : List Socket.Event := [.shutDown none, .start call ⟨none⟩ false]
    course.filterMap Http.failure? = [⟨call.method, .notObject⟩] ∧
      ¬Accounts (course.flatMap (·.2.log)) (course.map (·.2.post.body))
        (course.filterMap Http.failure?) ∧
      Socket.failures (s.trace events) = [(none, ⟨call.method, .connectionClosed⟩)] ∧
      ¬Accounts (s.run events).2.1 ((s.run events).1.filterMap Socket.Report.body?)
        ((Socket.failures (s.trace events)).map Prod.snd) := by
  intro call course s events
  have read : Rpc.replyOf "[]" = .error .notObject := by
    have parsed : Json.parse? "[]" = some (.arr []) := by
      have printed : "[]" = (Json.arr []).compact := by decide +kernel
      rw [printed, Json.parse?_compact rfl rfl (by decide)]
      rfl
    rw [Rpc.replyOf, Rpc.Response.decode, parsed]
    rfl
  have failed : course.filterMap Http.failure? = [⟨call.method, .notObject⟩] := by
    simp only [course, Http.Client.course, List.filterMap_cons, List.filterMap_nil, Http.failure?,
      Http.Client.execute_reply, read]
  refine ⟨failed, ?_, rfl, ?_⟩
  · intro accounts
    have told := (Http.accounts_course_iff rfl _).mp accounts ⟨call.method, .notObject⟩
    cases told (failed ▸ List.mem_cons_self)
  · intro accounts
    have timely := (Socket.accounts_run_iff none events).mp accounts
    exact timely [.shutDown none] call ⟨none⟩ false [] rfl none (by simp)

end Countersign
