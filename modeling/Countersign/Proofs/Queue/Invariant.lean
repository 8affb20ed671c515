import Countersign.Proofs.Queue.Moves

set_option autoImplicit false

/-!
# The invariant of a desk

At every moment the queue is well formed, and whatever is marked as in flight is known
to the queue and waited for. On a well-formed queue an action on a request that is
pending is never illegal, and one that settles a request puts it where nothing was.
-/

namespace Countersign

namespace Queue

theorem mem_unmark_inFlight {q : Queue} {id other : RequestId} :
    other ∈ (q.unmark id).inFlight ↔ id ≠ other ∧ other ∈ q.inFlight := by
  simp [unmark]

theorem WellFormed.unmark {q : Queue} (wf : q.WellFormed) (id : RequestId) :
    (q.unmark id).WellFormed :=
  ⟨wf.apart, wf.pendingOwn, wf.pendingStatus, wf.finishedOwn, wf.finishedStatus⟩

theorem WellFormed.attempted {q : Queue} (wf : q.WellFormed) (id : RequestId) :
    (q.attempted id).WellFormed :=
  ⟨wf.apart, wf.pendingOwn, wf.pendingStatus, wf.finishedOwn, wf.finishedStatus⟩

theorem getElem?_settled_pending (q : Queue) (id : RequestId) (request : Request)
    (verdict : Verdict) (other : RequestId) :
    (q.settled id request verdict).pending[other]? =
      if id = other then none else q.pending[other]? := by
  simp [settled, Std.ExtTreeMap.getElem?_erase]

theorem getElem?_settled_finished (q : Queue) (id : RequestId) (request : Request)
    (verdict : Verdict) (other : RequestId) :
    (q.settled id request verdict).finished[other]? =
      if id = other then some { request with status := verdict.status }
      else q.finished[other]? := by
  simp [settled, Std.ExtTreeMap.getElem?_insert]

theorem mem_settled_pending {q : Queue} {id : RequestId} {request : Request}
    {verdict : Verdict} {other : RequestId} :
    other ∈ (q.settled id request verdict).pending ↔ id ≠ other ∧ other ∈ q.pending := by
  simp [settled]

theorem mem_settled_finished {q : Queue} {id : RequestId} {request : Request}
    {verdict : Verdict} {other : RequestId} :
    other ∈ (q.settled id request verdict).finished ↔ id = other ∨ other ∈ q.finished := by
  simp [settled]

theorem knows_settled {q : Queue} {id : RequestId} {request : Request}
    (found : q.pending[id]? = some request) (verdict : Verdict) (other : RequestId) :
    (q.settled id request verdict).Knows other ↔ q.Knows other := by
  rw [Knows, mem_settled_pending, mem_settled_finished]
  by_cases same : id = other
  · have pending : other ∈ q.pending := mem_pending_iff.mpr ⟨request, same ▸ found⟩
    simp [same, Knows, pending]
  · simp [same, Knows]

theorem WellFormed.settled {q : Queue} (wf : q.WellFormed) {id : RequestId} {request : Request}
    (found : q.pending[id]? = some request) (verdict : Verdict) :
    (q.settled id request verdict).WellFormed := by
  constructor
  · intro other pending
    obtain ⟨different, pending⟩ := mem_settled_pending.mp pending
    rw [mem_settled_finished, not_or]
    exact ⟨different, wf.apart other pending⟩
  · intro other entry pending
    rw [getElem?_settled_pending] at pending
    split at pending
    · cases pending
    · exact wf.pendingOwn other entry pending
  · intro other entry pending
    rw [getElem?_settled_pending] at pending
    split at pending
    · cases pending
    · exact wf.pendingStatus other entry pending
  · intro other entry finished
    rw [getElem?_settled_finished] at finished
    split at finished
    · next same =>
      cases finished
      exact same ▸ wf.pendingOwn id request found
    · exact wf.finishedOwn other entry finished
  · intro other entry finished
    rw [getElem?_settled_finished] at finished
    split at finished
    · cases finished
      exact verdict.status_isSettled
    · exact wf.finishedStatus other entry finished

/-- On a well-formed queue an action is refused or it is legal, and it leaves what is
settled as it is. -/
theorem WellFormed.act_cases {q : Queue} (wf : q.WellFormed) (id : RequestId) (action : Action) :
    q.act id action = .error (q.refusal id) ∨
      ∃ next, q.act id action = .ok next ∧
        ∀ (other : RequestId) (request : Request),
          q.finished[other]? = some request → next.finished[other]? = some request := by
  by_cases pending : id ∈ q.pending
  · obtain ⟨request, found⟩ := mem_pending_iff.mp pending
    refine .inr ⟨_, act_of_pending found (wf.pendingStatus id request found) action, ?_⟩
    intro other done finished
    simp only [place]
    split
    · have different : id ≠ other := by
        rintro rfl
        exact wf.apart id pending (mem_finished_iff.mpr ⟨done, finished⟩)
      simp [Std.ExtTreeMap.getElem?_insert, different, finished]
    · exact finished
  · exact .inl (act_of_absent pending action)

theorem refusal_ne_illegalTransition (q : Queue) (id : RequestId) (source : Phase)
    (action : Action) : q.refusal id ≠ .illegalTransition source action := by
  unfold refusal
  split <;> simp

end Queue

namespace Desk

structure Sound (desk : Desk) : Prop where
  wellFormed : desk.queue.WellFormed
  /-- What is in flight is pending or settled. -/
  flightKnown : ∀ id ∈ desk.queue.inFlight, desk.queue.Knows id
  /-- What is in flight has a decision that waits. -/
  flightAwaited : ∀ id ∈ desk.queue.inFlight,
    ∃ ticket decision, (ticket, .decide id decision) ∈ desk.waiting
  ticketsDiffer : (desk.waiting.map Prod.fst).Nodup
  ticketsIssued : ∀ entry ∈ desk.waiting, entry.1 < desk.nextTicket

theorem sound_empty : empty.Sound := by
  refine ⟨Queue.wellFormed_empty, ?_, ?_, ?_, ?_⟩ <;> simp [empty, Queue.empty]

theorem mem_others {desk : Desk} {ticket : Nat} {entry : Nat × Operation} :
    entry ∈ desk.others ticket ↔ entry ∈ desk.waiting ∧ entry.1 ≠ ticket := by
  simp [others]

/-- A ticket belongs to one operation. -/
theorem Sound.lookup_eq {desk : Desk} (sound : desk.Sound) {ticket : Nat} {op : Operation}
    (waits : (ticket, op) ∈ desk.waiting) : desk.waiting.lookup ticket = some op :=
  lookup_of_mem sound.ticketsDiffer waits

/-- An operation begins: what is in flight afterwards was so before, or is its request. -/
theorem Sound.begins {desk : Desk} (sound : desk.Sound) {queue : Queue} {op : Operation}
    (wf : queue.WellFormed) (known : ∀ id ∈ queue.inFlight, queue.Knows id)
    (marked : ∀ id ∈ queue.inFlight,
      id ∈ desk.queue.inFlight ∨ ∃ decision, op = .decide id decision) :
    Sound ⟨queue, desk.waiting ++ [(desk.nextTicket, op)], desk.nextTicket + 1⟩ := by
  refine ⟨wf, known, ?_, ?_, ?_⟩
  · intro id inFlight
    rcases marked id inFlight with before | ⟨decision, rfl⟩
    · obtain ⟨ticket, decision, waits⟩ := sound.flightAwaited id before
      exact ⟨ticket, decision, List.mem_append_left _ waits⟩
    · exact ⟨desk.nextTicket, decision, List.mem_append_right _ (List.mem_singleton.mpr rfl)⟩
  · rw [List.map_append, List.nodup_append]
    refine ⟨sound.ticketsDiffer, by simp, ?_⟩
    intro old membership new isNew
    obtain ⟨entry, waits, rfl⟩ := List.mem_map.mp membership
    have issued := sound.ticketsIssued entry waits
    simp only [List.map_cons, List.map_nil, List.mem_singleton] at isNew
    omega
  · intro entry membership
    rcases List.mem_append.mp membership with old | new
    · exact Nat.lt_succ_of_lt (sound.ticketsIssued entry old)
    · rw [List.mem_singleton.mp new]
      exact Nat.lt_succ_self _

/-- An operation ends: what is still in flight was so before, and the decision that
waits for it is another one. -/
theorem Sound.ends {desk : Desk} (sound : desk.Sound) {ticket : Nat} {op : Operation}
    (waits : desk.waiting.lookup ticket = some op) {queue : Queue} (wf : queue.WellFormed)
    (known : ∀ id ∈ queue.inFlight, queue.Knows id)
    (marked : ∀ id ∈ queue.inFlight,
      id ∈ desk.queue.inFlight ∧ ∀ decision, op ≠ .decide id decision) :
    Sound ⟨queue, desk.others ticket, desk.nextTicket⟩ := by
  refine ⟨wf, known, ?_, ?_, ?_⟩
  · intro id inFlight
    obtain ⟨before, different⟩ := marked id inFlight
    obtain ⟨other, decision, awaited⟩ := sound.flightAwaited id before
    refine ⟨other, decision, mem_others.mpr ⟨awaited, ?_⟩⟩
    rintro rfl
    rw [sound.lookup_eq awaited] at waits
    exact different decision (Option.some.inj waits).symm
  · exact sound.ticketsDiffer.sublist (List.filter_sublist.map _)
  · intro entry membership
    exact sound.ticketsIssued entry (mem_others.mp membership).1

/-- A decision ends in a queue that has no more in flight than before. -/
theorem Sound.decisionEnds {desk : Desk} (sound : desk.Sound) {ticket : Nat} {id : RequestId}
    {decision : Decision} (waits : desk.waiting.lookup ticket = some (.decide id decision))
    {queue : Queue} (wf : queue.WellFormed) (same : queue.inFlight = desk.queue.inFlight)
    (known : ∀ other, desk.queue.Knows other → queue.Knows other) :
    Sound ⟨queue.unmark id, desk.others ticket, desk.nextTicket⟩ := by
  apply sound.ends waits (wf.unmark id)
  · intro other inFlight
    have before := (Queue.mem_unmark_inFlight.mp inFlight).2
    exact known other (sound.flightKnown other (same ▸ before))
  · intro other inFlight
    obtain ⟨different, before⟩ := Queue.mem_unmark_inFlight.mp inFlight
    refine ⟨same ▸ before, ?_⟩
    intro decision' equal
    cases equal
    exact different rfl

theorem Move.sound {desk next : Desk} {event : Event} {report : Report}
    (move : Move desk event report next) (sound : desk.Sound) : next.Sound := by
  cases move with
  | refused => exact sound
  | refreshCalled =>
    exact sound.begins sound.wellFormed sound.flightKnown fun _ inFlight => .inl inFlight
  | @decisionCalled id decision pending =>
    have wf := sound.wellFormed
    apply sound.begins
    · exact ⟨wf.apart, wf.pendingOwn, wf.pendingStatus, wf.finishedOwn, wf.finishedStatus⟩
    · intro other inFlight
      rcases Std.ExtTreeSet.mem_insert.mp inFlight with same | before
      · exact .inl (Std.LawfulEqOrd.eq_of_compare same ▸ pending)
      · exact sound.flightKnown other before
    · intro other inFlight
      rcases Std.ExtTreeSet.mem_insert.mp inFlight with same | before
      · exact .inr ⟨decision, by rw [Std.LawfulEqOrd.eq_of_compare same]⟩
      · exact .inl before
  | replyUnknown => exact sound
  | cancelUnknown => exact sound
  | @listed ticket reply reported waits read =>
    apply sound.ends waits (sound.wellFormed.receive (Request.status_of_listed? read))
    · -- a list drops nothing that is in flight
      intro id inFlight
      rw [Queue.receive_inFlight] at inFlight
      rcases sound.flightKnown id inFlight with pending | settled
      · exact .inl ((Queue.mem_receive_iff _ _ _).mpr (.inl ⟨pending, .inr inFlight⟩))
      · exact .inr (by rwa [Queue.receive_finished])
    · intro id inFlight
      rw [Queue.receive_inFlight] at inFlight
      exact ⟨inFlight, by simp⟩
  | unlisted waits =>
    exact sound.ends waits sound.wellFormed sound.flightKnown fun _ inFlight =>
      ⟨inFlight, by simp⟩
  | @settled ticket reply id decision verdict request waits granted found =>
    exact sound.decisionEnds waits (sound.wellFormed.settled found verdict) rfl
      fun other => (Queue.knows_settled found verdict other).mpr
  | late waits => exact sound.decisionEnds waits sound.wellFormed rfl fun _ known => known
  | @attempted ticket id decision e waits =>
    exact sound.decisionEnds waits (sound.wellFormed.attempted id) rfl fun _ known => known
  | denied waits => exact sound.decisionEnds waits sound.wellFormed rfl fun _ known => known
  | refreshCancelled waits =>
    exact sound.ends waits sound.wellFormed sound.flightKnown fun _ inFlight =>
      ⟨inFlight, by simp⟩
  | decisionCancelled waits =>
    exact sound.decisionEnds waits sound.wellFormed rfl fun _ known => known
  | logTaken =>
    have wf := sound.wellFormed
    exact ⟨⟨wf.apart, wf.pendingOwn, wf.pendingStatus, wf.finishedOwn, wf.finishedStatus⟩,
      sound.flightKnown, sound.flightAwaited, sound.ticketsDiffer, sound.ticketsIssued⟩

theorem Sound.step {desk : Desk} (sound : desk.Sound) (event : Event) :
    (desk.step event).2.Sound := (step_move sound.wellFormed event).sound sound

theorem Sound.run {desk : Desk} (sound : desk.Sound) (events : List Event) :
    (desk.run events).2.Sound :=
  run_keeps Sound (fun _ event sound => sound.step event) sound events

def Report.failure? : Report → Option Failure
  | .refused _ failure => some failure
  | .finished _ (.error failure) => some failure
  | _ => none

theorem Move.legal {desk next : Desk} {event : Event} {report : Report}
    (move : Move desk event report next) (source : Phase) (action : Action) :
    report.failure? ≠ some (.illegalTransition source action) := by
  -- a refusal is never of this kind, nor is what a reply brings
  have ofReply : ∀ failure : Failure, failure.ofReply = true →
      some failure ≠ some (.illegalTransition source action) := by
    rintro failure ofReply equal
    cases equal
    cases ofReply
  have refusal : ∀ id, some (desk.queue.refusal id) ≠ some (.illegalTransition source action) := by
    intro id equal
    exact desk.queue.refusal_ne_illegalTransition id source action (Option.some.inj equal)
  cases move with
  | refused => exact refusal _
  | late => exact refusal _
  | unlisted _ _ kind => exact ofReply _ kind
  | denied _ _ kind => exact ofReply _ kind
  | _ => simp [Report.failure?]

/-- What every report satisfies, if the reports of all steps from a sound desk do. -/
theorem Sound.run_reports {desk : Desk} (sound : desk.Sound) (fits : Report → Prop)
    (each : ∀ desk event, Sound desk → fits (desk.step event).1) (events : List Event) :
    ∀ report ∈ (desk.run events).1, fits report := by
  induction events generalizing desk with
  | nil => simp [Desk.run]
  | cons event rest ih =>
    intro report membership
    rcases List.mem_cons.mp membership with rfl | later
    · exact each desk event sound
    · exact ih (sound.step event) report later

/-- In every run the desk is sound, nothing is in flight when nothing waits, no operation
fails for an illegal transition, and no action would be illegal or replace what is
settled. -/
theorem every_run_sound (events : List Event) :
    (empty.run events).2.Sound ∧
      ((empty.run events).2.waiting = [] → (empty.run events).2.queue.inFlight = ∅) ∧
      (∀ report ∈ (empty.run events).1, ∀ source action,
        report.failure? ≠ some (.illegalTransition source action)) ∧
      ∀ id action,
        (∀ source step,
          (empty.run events).2.queue.act id action ≠ .error (.illegalTransition source step)) ∧
        ∀ next, (empty.run events).2.queue.act id action = .ok next →
          ∀ (other : RequestId) (request : Request),
            (empty.run events).2.queue.finished[other]? = some request →
              next.finished[other]? = some request := by
  have sound := sound_empty.run events
  refine ⟨sound, ?_, ?_, ?_⟩
  · intro idle
    apply Std.ExtTreeSet.ext_mem
    intro id
    constructor
    · intro inFlight
      obtain ⟨ticket, decision, waits⟩ := sound.flightAwaited id inFlight
      simp [idle] at waits
    · simp
  · refine sound_empty.run_reports _ ?_ events
    intro desk event sound source action
    exact (step_move sound.wellFormed event).legal source action
  · intro id action
    rcases sound.wellFormed.act_cases id action with refused | ⟨acted, succeeds, keeps⟩
    · constructor
      · intro source step equal
        rw [refused] at equal
        exact Queue.refusal_ne_illegalTransition _ id source step (Except.error.inj equal)
      · intro next equal
        rw [refused] at equal
        cases equal
    · constructor
      · intro source step equal
        rw [succeeds] at equal
        cases equal
      · intro next equal
        rw [succeeds] at equal
        cases equal
        exact keeps

end Desk

end Countersign
