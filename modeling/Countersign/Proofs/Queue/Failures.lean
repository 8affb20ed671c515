import Countersign.Proofs.Queue.Commutation
import Countersign.Queue.Scenario

set_option autoImplicit false

/-!
# Operations that fail leave the queue as it was

A decision on a request that is not pending fails before it makes a call. A list that
cannot be read in full is not taken in at all, however much of it can be read. A
decision that is not granted, or given up, loses its mark; only a confirmation whose call
failed leaves something else behind, one line in the log, and only while its request is
still pending.
-/

namespace Countersign

namespace Request

def FirstFlaw (entries : List Json) (what : Malformed) : Prop :=
  ∃ before entry after, entries = before ++ entry :: after ∧
    (∀ readable ∈ before, ∃ request, ofJson readable = .ok request) ∧
    ofJson entry = .error what

theorem FirstFlaw.cons {entry : Json} {entries : List Json} {request : Request}
    {what : Malformed} (read : ofJson entry = .ok request) (flaw : FirstFlaw entries what) :
    FirstFlaw (entry :: entries) what := by
  obtain ⟨before, flawed, after, rfl, readable, wrong⟩ := flaw
  refine ⟨entry :: before, flawed, after, rfl, ?_, wrong⟩
  intro other membership
  rcases List.mem_cons.mp membership with rfl | earlier
  · exact ⟨request, read⟩
  · exact readable other earlier

/-- One entry that cannot be read is enough for the list to fail, wherever it stands. -/
theorem listOfJson_of_flaw {entries : List Json} {entry : Json} {what : Malformed}
    (membership : entry ∈ entries) (wrong : ofJson entry = .error what) :
    ∃ first, FirstFlaw entries first ∧ listOfJson entries = .error first := by
  induction entries with
  | nil => cases membership
  | cons head rest ih =>
    cases read : ofJson head with
    | error first =>
      refine ⟨first, ⟨[], head, rest, rfl, by simp, read⟩, ?_⟩
      simp [listOfJson, read, bind, Except.bind]
    | ok request =>
      have later : entry ∈ rest := by
        rcases List.mem_cons.mp membership with rfl | later
        · cases wrong.symm.trans read
        · exact later
      obtain ⟨first, flaw, fails⟩ := ih later
      refine ⟨first, flaw.cons read, ?_⟩
      simp [listOfJson, read, fails, bind, Except.bind]

end Request

namespace Queue

theorem finish_refresh_of_not_array (q : Queue) {value : Json}
    (other : ∀ entries, value ≠ .arr entries) :
    q.finish .refresh (.ok value) =
      (.error (.malformed (.notArray Operation.refresh.call.method)), q) := by
  cases value with
  | arr entries => exact absurd rfl (other entries)
  | _ => rfl

theorem finish_refresh_of_flaw (q : Queue) {entries : List Json} {what : Malformed}
    (fails : Request.listOfJson entries = .error what) :
    q.finish .refresh (.ok (.arr entries)) = (.error (.malformed what), q) := by
  simp only [finish, conclude, listed, fails]
  rfl

theorem finish_reject_of_refusal (q : Queue) (id : RequestId) {value : Json}
    (refused : value ≠ .bool true) :
    q.finish (.decide id .reject) (.ok value) = (.error (.rejectRefused id), q.unmark id) := by
  simp only [finish, conclude, decided, rejected]
  rfl

def failedConfirmation (q : Queue) (id : RequestId) : Queue :=
  { q with
    inFlight := q.inFlight.erase id
    log := q.log ++ if id ∈ q.pending then [⟨id, .pending, .pending, .confirmFailed⟩] else [] }

theorem WellFormed.finish_confirmation_of_error {q : Queue} (wf : q.WellFormed) (id : RequestId)
    {decision : Decision} (confirms : decision ≠ .reject) (e : CallError) :
    q.finish (.decide id decision) (.error e) =
      (.error (.call e), q.failedConfirmation id) := by
  have recorded : (q.recordFailure id).unmark id = q.failedConfirmation id := by
    rw [wf.recordFailure]
    split
    · next pending => simp [failedConfirmation, Queue.attempted, Queue.unmark, pending]
    · next absent => simp [failedConfirmation, Queue.unmark, absent]
  have decided : q.decided id (.error e) decision = (.error (.call e), q.recordFailure id) := by
    cases decision with
    | reject => exact absurd rfl confirms
    | _ => rfl
  simp only [finish, conclude, decided, cancel, recorded]
  rfl

end Queue

namespace Desk

def ending (desk : Desk) (ticket : Nat) (queue : Queue) : Desk :=
  ⟨queue, desk.others ticket, desk.nextTicket⟩

theorem step_reply_eq {desk : Desk} {ticket : Nat} {op : Operation} {reply : Reply}
    {result : Except Failure Answer} {queue : Queue}
    (waits : desk.waiting.lookup ticket = some op)
    (ended : desk.queue.finish op reply = (result, queue)) :
    desk.step (.reply ticket reply) = (.finished op result, desk.ending ticket queue) := by
  simp only [step, waits, finish, ended, ending]

/-- The operation fails before it makes a call, and leaves nothing behind: at the desk,
nor at the node that a scenario has behind the desk. -/
def Refuses (desk : Desk) (op : Operation) (failure : Failure) : Prop :=
  desk.step (.start op) = (.refused op failure, desk) ∧
    ∀ (s : Scenario) (name : Option String), s.desk = desk →
      s.start name op = (.result (.error failure), none, s)

theorem refuses_of_absent {desk : Desk} {id : RequestId} (absent : id ∉ desk.queue.pending)
    (decision : Decision) : desk.Refuses (.decide id decision) (desk.queue.refusal id) := by
  have fails : desk.start (.decide id decision) = .error (desk.queue.refusal id) := by
    simp only [start, Queue.start, Queue.mark_of_absent absent]
  refine ⟨?_, ?_⟩
  · simp only [step, fails]
  · rintro s name rfl
    simp only [Scenario.start, fails]

/-- At every desk that a run leads to, an operation that fails leaves the queue as it was,
up to the mark of its request and the record of a failed confirmation. -/
theorem failures_leave_queue_intact (events : List Event) :
    let desk := (empty.run events).2
    let q := desk.queue
    (∀ id decision, id ∉ q.pending →
      (∀ request, q.finished[id]? = some request →
        desk.Refuses (.decide id decision) (.alreadySettled id request.status.phase)) ∧
      (id ∉ q.finished → desk.Refuses (.decide id decision) (.notFound id))) ∧
    (∀ ticket, desk.waiting.lookup ticket = some .refresh →
      (∀ e, desk.step (.reply ticket (.error e)) =
        (.finished .refresh (.error (.call e)), desk.ending ticket q)) ∧
      (∀ value, (∀ entries, value ≠ .arr entries) →
        desk.step (.reply ticket (.ok value)) =
          (.finished .refresh (.error (.malformed (.notArray Operation.refresh.call.method))),
            desk.ending ticket q)) ∧
      ∀ entries, ∀ entry ∈ entries, ∀ what, Request.ofJson entry = .error what →
        ∃ first, Request.FirstFlaw entries first ∧
          desk.step (.reply ticket (.ok (.arr entries))) =
            (.finished .refresh (.error (.malformed first)), desk.ending ticket q)) ∧
    (∀ ticket id, desk.waiting.lookup ticket = some (.decide id .reject) →
      (∀ e, desk.step (.reply ticket (.error e)) =
        (.finished (.decide id .reject) (.error (.call e)), desk.ending ticket (q.unmark id))) ∧
      ∀ value, value ≠ .bool true → desk.step (.reply ticket (.ok value)) =
        (.finished (.decide id .reject) (.error (.rejectRefused id)),
          desk.ending ticket (q.unmark id))) ∧
    ∀ ticket id decision, desk.waiting.lookup ticket = some (.decide id decision) →
      desk.step (.cancel ticket) =
        (.cancelled (.decide id decision), desk.ending ticket (q.unmark id)) ∧
      (decision ≠ .reject → ∀ e, desk.step (.reply ticket (.error e)) =
        (.finished (.decide id decision) (.error (.call e)),
          desk.ending ticket (q.failedConfirmation id))) := by
  intro desk q
  have wf : q.WellFormed := (sound_empty.run events).wellFormed
  refine ⟨?_, ?_, ?_, ?_⟩
  · intro id decision absent
    have refuses := refuses_of_absent absent decision
    refine ⟨?_, ?_⟩
    · intro request found
      rwa [Queue.refusal_of_finished found] at refuses
    · intro unknown
      rwa [Queue.refusal_of_unknown unknown] at refuses
  · intro ticket waits
    refine ⟨fun e => step_reply_eq waits rfl, ?_, ?_⟩
    · intro value other
      exact step_reply_eq waits (q.finish_refresh_of_not_array other)
    · intro entries entry membership what wrong
      obtain ⟨first, flaw, fails⟩ := Request.listOfJson_of_flaw membership wrong
      exact ⟨first, flaw, step_reply_eq waits (q.finish_refresh_of_flaw fails)⟩
  · intro ticket id waits
    refine ⟨fun e => step_reply_eq waits rfl, ?_⟩
    intro value refused
    exact step_reply_eq waits (q.finish_reject_of_refusal id refused)
  · intro ticket id decision waits
    refine ⟨?_, ?_⟩
    · simp only [step, waits]
      rfl
    · intro confirms e
      exact step_reply_eq waits (wf.finish_confirmation_of_error id confirms e)

def halfReadable : List Json := [.obj [("id", .ofUInt64 9), ("payload", .null)], .null]

/-- A confirmation, a rejection and a refresh wait, and each of them fails; nobody has
heard of the request that a fourth operation is about. -/
theorem relisted_failures_leave_queue :
    let desk := (empty.run relisted).2
    desk.Refuses (.decide ⟨8⟩ .reject) (.notFound ⟨8⟩) ∧
      (∃ first, Request.FirstFlaw halfReadable first ∧
        desk.step (.reply 3 (.ok (.arr halfReadable))) =
          (.finished .refresh (.error (.malformed first)), desk.ending 3 desk.queue)) ∧
      desk.step (.reply 2 (.ok (.bool false))) =
        (.finished (.decide ⟨7⟩ .reject) (.error (.rejectRefused ⟨7⟩)),
          desk.ending 2 (desk.queue.unmark ⟨7⟩)) ∧
      desk.step (.reply 1 (.error .connectionClosed)) =
        (.finished (.decide ⟨7⟩ (.confirm .null "")) (.error (.call .connectionClosed)),
          desk.ending 1 (desk.queue.failedConfirmation ⟨7⟩)) := by
  intro desk
  have waiting : desk.waiting =
      [(1, .decide ⟨7⟩ (.confirm .null "")), (2, .decide ⟨7⟩ .reject), (3, .refresh)] := by
    with_unfolding_all rfl
  have confirms : desk.waiting.lookup 1 = some (.decide ⟨7⟩ (.confirm .null "")) := by
    rw [waiting]
    rfl
  have rejects : desk.waiting.lookup 2 = some (.decide ⟨7⟩ .reject) := by
    rw [waiting]
    rfl
  have refreshes : desk.waiting.lookup 3 = some .refresh := by
    rw [waiting]
    rfl
  obtain ⟨refused, unlisted, denied, failed⟩ := failures_leave_queue_intact relisted
  refine ⟨?_, ?_, ?_, ?_⟩
  · exact (refused ⟨8⟩ .reject (by decide +kernel)).2 (by decide +kernel)
  · exact (unlisted 3 refreshes).2.2 halfReadable .null (by simp [halfReadable]) .missingId rfl
  · exact (denied 2 ⟨7⟩ rejects).2 (.bool false) (by simp)
  · exact (failed 1 ⟨7⟩ _ confirms).2 (by simp) .connectionClosed

end Desk

end Countersign
