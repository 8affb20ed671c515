import Countersign.Proofs.Queue.Effects
import Countersign.Queue.Desk

set_option autoImplicit false

/-!
# What one event does to a desk

The moves of a desk list once everything that an event can do as long as the queue is
well formed. Each is one of the effects on the queue, together with what it does to the
operations that wait. What holds of every run is shown by going through the moves.
-/

namespace Countersign

/-- The failure lies in the call or its reply, not in the state of the queue. -/
def Failure.ofReply : Failure → Bool
  | .call _ | .malformed _ | .rejectRefused _ => true
  | .illegalTransition _ _ | .notFound _ | .alreadySettled _ _ => false

theorem Queue.listed_of_listed? (q : Queue) {reply : Reply} {reported : List Request}
    (read : Request.listed? reply = some reported) :
    q.listed reply = (.ok (q.receive reported).requests, q.receive reported) := by
  unfold Request.listed? at read
  split at read
  · next entries =>
    cases each : Request.listOfJson entries with
    | error e => simp [each, Except.toOption] at read
    | ok requests =>
      simp only [each, Except.toOption, Option.some.injEq] at read
      subst read
      simp [Queue.listed, each]
  · cases read

theorem Queue.listed_of_not_listed? (q : Queue) {reply : Reply}
    (unread : Request.listed? reply = none) :
    ∃ failure, failure.ofReply = true ∧ q.listed reply = (.error failure, q) := by
  unfold Queue.listed
  split
  · next e => exact ⟨.call e, rfl, rfl⟩
  · next entries =>
    cases each : Request.listOfJson entries with
    | error e => exact ⟨.malformed e, rfl, rfl⟩
    | ok requests => simp [Request.listed?, each, Except.toOption] at unread
  · exact ⟨_, rfl, rfl⟩

namespace Desk

/-- Everything that an event can do to a desk. -/
inductive Move (desk : Desk) : Event → Report → Desk → Prop where
  | refused {id : RequestId} {decision : Decision} :
      id ∉ desk.queue.pending →
      Move desk (.start (.decide id decision))
        (.refused (.decide id decision) (desk.queue.refusal id)) desk
  | refreshCalled :
      Move desk (.start .refresh) (.called desk.nextTicket .refresh)
        ⟨desk.queue, desk.waiting ++ [(desk.nextTicket, .refresh)], desk.nextTicket + 1⟩
  | decisionCalled {id : RequestId} {decision : Decision} :
      id ∈ desk.queue.pending →
      Move desk (.start (.decide id decision)) (.called desk.nextTicket (.decide id decision))
        ⟨{ desk.queue with inFlight := desk.queue.inFlight.insert id },
          desk.waiting ++ [(desk.nextTicket, .decide id decision)], desk.nextTicket + 1⟩
  | replyUnknown {ticket : Nat} {reply : Reply} :
      desk.waiting.lookup ticket = none → Move desk (.reply ticket reply) .noTicket desk
  | cancelUnknown {ticket : Nat} :
      desk.waiting.lookup ticket = none → Move desk (.cancel ticket) .noTicket desk
  | listed {ticket : Nat} {reply : Reply} {reported : List Request} :
      desk.waiting.lookup ticket = some .refresh → Request.listed? reply = some reported →
      Move desk (.reply ticket reply)
        (.finished .refresh (.ok (.listed (desk.queue.receive reported).requests)))
        ⟨desk.queue.receive reported, desk.others ticket, desk.nextTicket⟩
  | unlisted {ticket : Nat} {reply : Reply} {failure : Failure} :
      desk.waiting.lookup ticket = some .refresh → Request.listed? reply = none →
      failure.ofReply = true →
      Move desk (.reply ticket reply) (.finished .refresh (.error failure))
        ⟨desk.queue, desk.others ticket, desk.nextTicket⟩
  | settled {ticket : Nat} {reply : Reply} {id : RequestId} {decision : Decision}
      {verdict : Verdict} {request : Request} :
      desk.waiting.lookup ticket = some (.decide id decision) →
      decision.granted? reply = some verdict → desk.queue.pending[id]? = some request →
      Move desk (.reply ticket reply) (.finished (.decide id decision) (.ok (.decided verdict)))
        ⟨(desk.queue.settled id request verdict).unmark id, desk.others ticket, desk.nextTicket⟩
  /-- Granted, but the request is no longer pending. -/
  | late {ticket : Nat} {reply : Reply} {id : RequestId} {decision : Decision}
      {verdict : Verdict} :
      desk.waiting.lookup ticket = some (.decide id decision) →
      decision.granted? reply = some verdict → id ∉ desk.queue.pending →
      Move desk (.reply ticket reply)
        (.finished (.decide id decision) (.error (desk.queue.refusal id)))
        ⟨desk.queue.unmark id, desk.others ticket, desk.nextTicket⟩
  | attempted {ticket : Nat} {id : RequestId} {decision : Decision} {e : CallError} :
      desk.waiting.lookup ticket = some (.decide id decision) → decision ≠ .reject →
      id ∈ desk.queue.pending →
      Move desk (.reply ticket (.error e))
        (.finished (.decide id decision) (.error (.call e)))
        ⟨(desk.queue.attempted id).unmark id, desk.others ticket, desk.nextTicket⟩
  /-- Nothing goes on record: a rejection, or the request is no longer pending. -/
  | denied {ticket : Nat} {reply : Reply} {id : RequestId} {decision : Decision}
      {failure : Failure} :
      desk.waiting.lookup ticket = some (.decide id decision) →
      decision.granted? reply = none → failure.ofReply = true →
      decision = .reject ∨ id ∉ desk.queue.pending →
      Move desk (.reply ticket reply) (.finished (.decide id decision) (.error failure))
        ⟨desk.queue.unmark id, desk.others ticket, desk.nextTicket⟩
  | refreshCancelled {ticket : Nat} :
      desk.waiting.lookup ticket = some .refresh →
      Move desk (.cancel ticket) (.cancelled .refresh)
        ⟨desk.queue, desk.others ticket, desk.nextTicket⟩
  | decisionCancelled {ticket : Nat} {id : RequestId} {decision : Decision} :
      desk.waiting.lookup ticket = some (.decide id decision) →
      Move desk (.cancel ticket) (.cancelled (.decide id decision))
        ⟨desk.queue.unmark id, desk.others ticket, desk.nextTicket⟩
  | logTaken :
      Move desk .takeLog (.log desk.queue.log)
        ⟨{ desk.queue with log := [] }, desk.waiting, desk.nextTicket⟩

theorem step_start_move (desk : Desk) (op : Operation) :
    Move desk (.start op) (desk.step (.start op)).1 (desk.step (.start op)).2 := by
  cases op with
  | refresh => exact .refreshCalled
  | decide id decision =>
    by_cases pending : id ∈ desk.queue.pending
    · simp only [step, start, Queue.start, Queue.mark_of_pending pending]
      exact .decisionCalled pending
    · simp only [step, start, Queue.start, Queue.mark_of_absent pending]
      exact .refused pending

/-- The move of a decision that gets its reply. -/
theorem finish_decision_move {desk : Desk} (wf : desk.queue.WellFormed) {ticket : Nat}
    {id : RequestId} {decision : Decision} (reply : Reply)
    (waits : desk.waiting.lookup ticket = some (.decide id decision)) :
    Move desk (.reply ticket reply)
      (.finished (.decide id decision) (desk.finish ticket (.decide id decision) reply).1)
      (desk.finish ticket (.decide id decision) reply).2 := by
  simp only [finish, Queue.finish, Queue.conclude, Queue.cancel]
  cases granted : decision.granted? reply with
  | some verdict =>
    rw [Queue.decided_of_granted desk.queue id granted, Queue.settle]
    by_cases pending : id ∈ desk.queue.pending
    · obtain ⟨request, found⟩ := Queue.mem_pending_iff.mp pending
      rw [Queue.act_verdict found (wf.pendingStatus id request found)]
      exact .settled waits granted found
    · rw [Queue.act_of_absent pending]
      exact .late waits granted pending
  | none =>
    rcases Queue.decided_of_not_granted desk.queue id granted with
      ⟨e, rfl, confirms, ended⟩ | ⟨e, rfl, rfl, ended⟩ | ⟨value, rfl, rfl, ended⟩
    · rw [ended, wf.recordFailure]
      split
      · next pending => exact .attempted waits confirms pending
      · next absent => exact .denied waits granted rfl (.inr absent)
    · rw [ended]
      exact .denied waits granted rfl (.inl rfl)
    · rw [ended]
      exact .denied waits granted rfl (.inl rfl)

theorem step_reply_move {desk : Desk} (wf : desk.queue.WellFormed) (ticket : Nat)
    (reply : Reply) :
    Move desk (.reply ticket reply) (desk.step (.reply ticket reply)).1
      (desk.step (.reply ticket reply)).2 := by
  cases waits : desk.waiting.lookup ticket with
  | none =>
    simp only [step, waits]
    exact .replyUnknown waits
  | some op =>
    simp only [step, waits]
    cases op with
    | decide id decision => exact finish_decision_move wf reply waits
    | refresh =>
      simp only [finish, Queue.finish, Queue.conclude, Queue.cancel]
      cases read : Request.listed? reply with
      | some reported =>
        rw [Queue.listed_of_listed? desk.queue read]
        exact .listed waits read
      | none =>
        obtain ⟨failure, ofReply, ended⟩ := Queue.listed_of_not_listed? desk.queue read
        rw [ended]
        exact .unlisted waits read ofReply

theorem step_cancel_move (desk : Desk) (ticket : Nat) :
    Move desk (.cancel ticket) (desk.step (.cancel ticket)).1
      (desk.step (.cancel ticket)).2 := by
  cases waits : desk.waiting.lookup ticket with
  | none =>
    simp only [step, waits]
    exact .cancelUnknown waits
  | some op =>
    simp only [step, waits]
    cases op with
    | refresh => exact .refreshCancelled waits
    | decide id decision => exact .decisionCancelled waits

theorem step_move {desk : Desk} (wf : desk.queue.WellFormed) (event : Event) :
    Move desk event (desk.step event).1 (desk.step event).2 := by
  cases event with
  | start op => exact step_start_move desk op
  | reply ticket reply => exact step_reply_move wf ticket reply
  | cancel ticket => exact step_cancel_move desk ticket
  | takeLog => exact .logTaken

/-! ### Runs -/

theorem run_append (desk : Desk) (first second : List Event) :
    desk.run (first ++ second) =
      ((desk.run first).1 ++ ((desk.run first).2.run second).1,
        ((desk.run first).2.run second).2) := by
  induction first generalizing desk with
  | nil => rfl
  | cons event rest ih => simp [run, ih]

theorem run_snoc (desk : Desk) (events : List Event) (event : Event) :
    desk.run (events ++ [event]) =
      ((desk.run events).1 ++ [((desk.run events).2.step event).1],
        ((desk.run events).2.step event).2) := by
  rw [run_append]
  rfl

/-- What every step keeps holds at the end of every run. -/
theorem run_keeps (holds : Desk → Prop)
    (keeps : ∀ desk event, holds desk → holds (desk.step event).2) {desk : Desk}
    (start : holds desk) (events : List Event) : holds (desk.run events).2 := by
  induction events generalizing desk with
  | nil => exact start
  | cons event rest ih => exact ih (keeps desk event start)

end Desk

end Countersign
