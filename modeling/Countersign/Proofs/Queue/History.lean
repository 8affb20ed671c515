import Countersign.Proofs.Queue.Invariant

set_option autoImplicit false

/-!
# The log tells the history of every request

The log can be taken off the queue at any time. All that was taken, with what is still
there behind it, holds every change once, in the order in which the changes were made.
The changes of one request are confirmations that failed and, behind them all, the
verdict, which is there exactly if the request is settled.
-/

namespace Countersign

def Phase.reason : Phase → Reason
  | .pending => .confirmFailed
  | .confirmed => .confirmed
  | .rejected => .rejected

/-- The change of a pending request. One that leaves it pending is a confirmation that
failed. -/
def Transition.into (id : RequestId) (phase : Phase) : Transition :=
  ⟨id, .pending, phase, phase.reason⟩

/-- The phase of a pending request after the reply to a decision on it, if the reply
changes anything. -/
def Decision.effect? : Decision → Reply → Option Phase
  | .reject, .ok (.bool true) => some .rejected
  | .reject, _ => none
  | _, .ok _ => some .confirmed
  | _, .error _ => some .pending

theorem Decision.effect?_of_granted {decision : Decision} {reply : Reply} {verdict : Verdict}
    (granted : decision.granted? reply = some verdict) :
    decision.effect? reply = some verdict.status.phase := by
  unfold Decision.granted? at granted
  split at granted
  · cases granted
    rfl
  · cases granted
  · next confirms =>
    cases granted
    cases decision with
    | reject => exact absurd rfl confirms
    | _ => rfl
  · cases granted

theorem Decision.effect?_of_error {decision : Decision} (confirms : decision ≠ .reject)
    (e : CallError) : decision.effect? (.error e) = some .pending := by
  cases decision with
  | reject => exact absurd rfl confirms
  | _ => rfl

theorem Decision.effect?_reject {reply : Reply} (refused : Decision.reject.granted? reply = none) :
    Decision.reject.effect? reply = none := by
  unfold Decision.effect?
  split
  · cases refused
  · rfl
  · next confirms => exact absurd rfl confirms
  · next confirms => exact absurd rfl confirms

theorem Verdict.transition (id : RequestId) (verdict : Verdict) :
    (⟨id, .pending, verdict.status.phase, (Status.next verdict.action).2⟩ : Transition) =
      .into id verdict.status.phase := by
  cases verdict <;> rfl

theorem Status.phase_ne_pending {status : Status} (settled : status.isSettled = true) :
    status.phase ≠ .pending := by
  cases status with
  | pending => cases settled
  | _ => simp [Status.phase]

namespace Desk

def Report.drained : Report → List Transition
  | .log changes => changes
  | _ => []

/-- The change that an event makes: a reply to a decision on a pending request. -/
def change? (desk : Desk) : Event → Option Transition
  | .reply ticket reply =>
    match desk.waiting.lookup ticket with
    | some (.decide id decision) =>
      if id ∈ desk.queue.pending then (decision.effect? reply).map (.into id) else none
    | _ => none
  | _ => none

def changes (desk : Desk) : List Event → List Transition
  | [] => []
  | event :: rest => (desk.change? event).toList ++ (desk.step event).2.changes rest

theorem change?_of_pending {desk : Desk} {ticket : Nat} {id : RequestId} {decision : Decision}
    (waits : desk.waiting.lookup ticket = some (.decide id decision))
    (pending : id ∈ desk.queue.pending) (reply : Reply) :
    desk.change? (.reply ticket reply) = (decision.effect? reply).map (.into id) := by
  simp [change?, waits, pending]

theorem change?_of_absent {desk : Desk} {ticket : Nat} {id : RequestId} {decision : Decision}
    (waits : desk.waiting.lookup ticket = some (.decide id decision))
    (absent : id ∉ desk.queue.pending) (reply : Reply) :
    desk.change? (.reply ticket reply) = none := by
  simp [change?, waits, absent]

theorem change?_of_refresh {desk : Desk} {ticket : Nat}
    (waits : desk.waiting.lookup ticket = some .refresh) (reply : Reply) :
    desk.change? (.reply ticket reply) = none := by
  simp [change?, waits]

theorem change?_of_unknown {desk : Desk} {ticket : Nat}
    (unknown : desk.waiting.lookup ticket = none) (reply : Reply) :
    desk.change? (.reply ticket reply) = none := by
  simp [change?, unknown]

/-- What a move does to the log and to what is settled, by the change that it makes. -/
inductive Records (desk next : Desk) (drained : List Transition) : Option Transition → Prop where
  | nothing : drained ++ next.queue.log = desk.queue.log →
      next.queue.finished = desk.queue.finished → Records desk next drained none
  | attempt {id : RequestId} : id ∈ desk.queue.pending →
      drained ++ next.queue.log = desk.queue.log ++ [.into id .pending] →
      next.queue.finished = desk.queue.finished →
      Records desk next drained (some (.into id .pending))
  | verdict {id : RequestId} {request : Request} : id ∈ desk.queue.pending →
      drained ++ next.queue.log = desk.queue.log ++ [.into id request.status.phase] →
      next.queue.finished = desk.queue.finished.insert id request →
      Records desk next drained (some (.into id request.status.phase))

theorem Records.log_eq {desk next : Desk} {drained : List Transition} {change : Option Transition}
    (records : Records desk next drained change) :
    drained ++ next.queue.log = desk.queue.log ++ change.toList := by
  cases records with
  | nothing log => rw [log, Option.toList_none, List.append_nil]
  | attempt _ log | verdict _ log => exact log

theorem Move.records {desk next : Desk} {event : Event} {report : Report}
    (move : Move desk event report next) :
    Records desk next report.drained (desk.change? event) := by
  cases move with
  | refused | refreshCalled | decisionCalled | cancelUnknown | refreshCancelled
  | decisionCancelled => exact .nothing rfl rfl
  | logTaken => exact .nothing (List.append_nil _) rfl
  | replyUnknown unknown =>
    rw [change?_of_unknown unknown]
    exact .nothing rfl rfl
  | listed waits =>
    rw [change?_of_refresh waits]
    exact .nothing (Queue.receive_log _ _) (Queue.receive_finished _ _)
  | unlisted waits =>
    rw [change?_of_refresh waits]
    exact .nothing rfl rfl
  | @settled ticket reply id decision verdict request waits granted found =>
    have pending := Queue.mem_pending_iff.mpr ⟨request, found⟩
    rw [change?_of_pending waits pending, Decision.effect?_of_granted granted]
    have recorded : desk.queue.log ++
        [⟨id, .pending, verdict.status.phase, (Status.next verdict.action).2⟩] =
          desk.queue.log ++ [.into id verdict.status.phase] := by rw [verdict.transition]
    exact @Records.verdict _ _ _ id { request with status := verdict.status } pending recorded rfl
  | late waits granted absent =>
    rw [change?_of_absent waits absent]
    exact .nothing rfl rfl
  | @attempted ticket id decision e waits confirms pending =>
    rw [change?_of_pending waits pending, Decision.effect?_of_error confirms]
    exact .attempt pending rfl rfl
  | @denied ticket reply id decision failure waits refused kind unrecorded =>
    have unchanged : desk.change? (.reply ticket reply) = none := by
      by_cases pending : id ∈ desk.queue.pending
      · cases unrecorded.resolve_right (not_not_intro pending)
        rw [change?_of_pending waits pending, Decision.effect?_reject refused, Option.map_none]
      · exact change?_of_absent waits pending reply
    rw [unchanged]
    exact .nothing rfl rfl

theorem Sound.drained_run {desk : Desk} (sound : desk.Sound) (events : List Event) :
    (desk.run events).1.flatMap Report.drained ++ (desk.run events).2.queue.log =
      desk.queue.log ++ desk.changes events := by
  induction events generalizing desk with
  | nil => exact (List.append_nil _).symm
  | cons event rest ih =>
    have records := (step_move sound.wellFormed event).records
    calc (desk.run (event :: rest)).1.flatMap Report.drained ++
          (desk.run (event :: rest)).2.queue.log
        = (desk.step event).1.drained ++
            (((desk.step event).2.run rest).1.flatMap Report.drained ++
              ((desk.step event).2.run rest).2.queue.log) := by
          simp [Desk.run]
      _ = ((desk.step event).1.drained ++ (desk.step event).2.queue.log) ++
            (desk.step event).2.changes rest := by
          rw [ih (sound.step event), List.append_assoc]
      _ = (desk.queue.log ++ (desk.change? event).toList) ++
            (desk.step event).2.changes rest := by rw [records.log_eq]
      _ = desk.queue.log ++ desk.changes (event :: rest) := List.append_assoc _ _ _

/-- The history of an id: confirmations that failed, and the verdict if it is settled. -/
def Told (history : List Transition) (q : Queue) (id : RequestId) : Prop :=
  ∃ failures, history.filter (·.id == id) =
    List.replicate failures (.into id .pending) ++
      q.finished[id]?.toList.map fun request => .into id request.status.phase

theorem Told.records {desk next : Desk} {drained history : List Transition}
    {change : Option Transition} {id : RequestId} (told : Told history desk.queue id)
    (wf : desk.queue.WellFormed) (records : Records desk next drained change) :
    Told (history ++ change.toList) next.queue id := by
  obtain ⟨failures, past⟩ := told
  unfold Told
  rw [List.filter_append, past]
  cases records with
  | nothing log finished =>
    exact ⟨failures, by simp [finished]⟩
  | @attempt changed pending log finished =>
    rw [finished]
    by_cases same : changed = id
    · subst same
      have unsettled := Std.ExtTreeMap.getElem?_eq_none (wf.apart changed pending)
      refine ⟨failures + 1, ?_⟩
      simp [unsettled, Transition.into, List.replicate_succ']
    · exact ⟨failures, by simp [Transition.into, same]⟩
  | @verdict changed request pending log finished =>
    rw [finished, Std.ExtTreeMap.getElem?_insert]
    by_cases same : changed = id
    · subst same
      have unsettled := Std.ExtTreeMap.getElem?_eq_none (wf.apart changed pending)
      exact ⟨failures, by simp [unsettled, Transition.into]⟩
    · exact ⟨failures, by simp [Transition.into, same]⟩

theorem Sound.told_run {desk : Desk} (sound : desk.Sound) {history : List Transition}
    {id : RequestId} (told : Told history desk.queue id) (events : List Event) :
    Told (history ++ desk.changes events) (desk.run events).2.queue id := by
  induction events generalizing desk history with
  | nil =>
    rw [changes, List.append_nil]
    exact told
  | cons event rest ih =>
    have records := (step_move sound.wellFormed event).records
    have later := ih (sound.step event) (told.records sound.wellFormed records)
    rw [List.append_assoc] at later
    exact later

/-- All that was taken off the log and what is still on it are the changes of the run in
their order. Those of one id are confirmations that failed, and last the verdict, which is
there if and only if the id is settled. -/
theorem log_tells_history (events : List Event) :
    let desk := (empty.run events).2
    let history := (empty.run events).1.flatMap Report.drained ++ desk.queue.log
    history = empty.changes events ∧
      ∀ id, ∃ failures verdict,
        history.filter (·.id == id) =
          List.replicate failures ⟨id, .pending, .pending, .confirmFailed⟩ ++ verdict ∧
        ((id ∉ desk.queue.finished ∧ verdict = []) ∨
          ∃ request, desk.queue.finished[id]? = some request ∧ request.status.phase ≠ .pending ∧
            verdict = [⟨id, .pending, request.status.phase, request.status.phase.reason⟩]) := by
  intro desk history
  have sound : desk.Sound := sound_empty.run events
  have complete : history = empty.changes events := sound_empty.drained_run events
  refine ⟨complete, ?_⟩
  intro id
  have unheard : Told [] empty.queue id := ⟨0, by simp [empty, Queue.empty]⟩
  obtain ⟨failures, told⟩ := sound_empty.told_run unheard events
  rw [List.nil_append, ← complete] at told
  refine ⟨failures, _, told, ?_⟩
  cases found : desk.queue.finished[id]? with
  | none =>
    have unsettled : id ∉ desk.queue.finished := by simp [Queue.mem_finished_iff, found]
    exact .inl ⟨unsettled, rfl⟩
  | some request =>
    have settled := sound.wellFormed.finishedStatus id request found
    exact .inr ⟨request, rfl, Status.phase_ne_pending settled, rfl⟩

end Desk

end Countersign
