import Countersign.Proofs.Queue.Invariant

set_option autoImplicit false

/-!
# A request is settled once

Whatever is settled stays settled, since lists of the node and other decisions only act
on what is pending. So at most one decision on a request succeeds, and from then on the
request is found with the status of that verdict and every new decision is refused.
-/

namespace Countersign.Desk

def Report.settles (id : RequestId) : Report → Bool
  | .finished (.decide settled _) (.ok _) => settled == id
  | _ => false

structure SettledAs (desk : Desk) (id : RequestId) (request : Request) : Prop where
  found : desk.queue.get? id = some request
  notPending : id ∉ desk.queue.pending
  notListed : ∀ other ∈ desk.queue.requests, other.id ≠ id
  refused : ∀ decision, desk.step (.start (.decide id decision)) =
    (.refused (.decide id decision) (.alreadySettled id request.status.phase), desk)

theorem Move.finished_stays {desk next : Desk} {event : Event} {report : Report}
    (move : Move desk event report next) (wf : desk.queue.WellFormed) {id : RequestId}
    {request : Request} (found : desk.queue.finished[id]? = some request) :
    next.queue.finished[id]? = some request := by
  cases move with
  | @settled ticket reply other decision verdict entry waits granted pending =>
    have different : other ≠ id := by
      rintro rfl
      exact wf.apart other (Queue.mem_pending_iff.mpr ⟨entry, pending⟩)
        (Queue.mem_finished_iff.mpr ⟨request, found⟩)
    have kept := Queue.getElem?_settled_finished desk.queue other entry verdict id
    rw [if_neg different] at kept
    exact kept.trans found
  | listed =>
    rw [Queue.receive_finished]
    exact found
  | _ => exact found

theorem Sound.finished_run {desk : Desk} (sound : desk.Sound) {id : RequestId} {request : Request}
    (found : desk.queue.finished[id]? = some request) (events : List Event) :
    (desk.run events).2.queue.finished[id]? = some request := by
  induction events generalizing desk with
  | nil => exact found
  | cons event rest ih =>
    exact ih (sound.step event)
      ((step_move sound.wellFormed event).finished_stays sound.wellFormed found)

/-- A decision that succeeds has found its request pending and leaves it settled. -/
theorem Move.of_success {desk next : Desk} {event : Event} {id : RequestId}
    {decision : Decision} {answer : Answer}
    (move : Move desk event (.finished (.decide id decision) (.ok answer)) next) :
    ∃ verdict request, answer = .decided verdict ∧ (verdict = .rejected ↔ decision = .reject) ∧
      desk.queue.pending[id]? = some request ∧
      next.queue.finished[id]? = some { request with status := verdict.status } := by
  cases move with
  | @settled ticket reply id decision verdict request waits granted pending =>
    refine ⟨verdict, request, rfl, Decision.granted?_rejected granted, pending, ?_⟩
    have placed := Queue.getElem?_settled_finished desk.queue id request verdict id
    rw [if_pos rfl] at placed
    exact placed

theorem Move.settles_pending {desk next : Desk} {event : Event} {report : Report}
    (move : Move desk event report next) {id : RequestId} (settles : report.settles id = true) :
    id ∈ desk.queue.pending ∧ id ∈ next.queue.finished := by
  cases move with
  | @settled ticket reply other decision verdict request waits granted pending =>
    cases eq_of_beq settles
    exact ⟨Queue.mem_pending_iff.mpr ⟨request, pending⟩,
      Queue.mem_settled_finished.mpr (.inl rfl)⟩
  | _ => cases settles

theorem Sound.countP_settles_eq_zero {desk : Desk} (sound : desk.Sound) {id : RequestId}
    (finished : id ∈ desk.queue.finished) (events : List Event) :
    (desk.run events).1.countP (Report.settles id) = 0 := by
  induction events generalizing desk with
  | nil => rfl
  | cons event rest ih =>
    have move := step_move sound.wellFormed event
    obtain ⟨request, found⟩ := Queue.mem_finished_iff.mp finished
    have later : id ∈ (desk.step event).2.queue.finished :=
      Queue.mem_finished_iff.mpr ⟨request, move.finished_stays sound.wellFormed found⟩
    have silent : ¬ Report.settles id (desk.step event).1 = true := by
      intro settles
      exact sound.wellFormed.apart id (move.settles_pending settles).1 finished
    simp only [Desk.run]
    rw [List.countP_cons_of_neg silent]
    exact ih (sound.step event) later

theorem Sound.countP_settles_le_one {desk : Desk} (sound : desk.Sound) (id : RequestId)
    (events : List Event) : (desk.run events).1.countP (Report.settles id) ≤ 1 := by
  induction events generalizing desk with
  | nil => exact Nat.zero_le 1
  | cons event rest ih =>
    have move := step_move sound.wellFormed event
    simp only [Desk.run]
    by_cases settles : Report.settles id (desk.step event).1 = true
    · have finished := (move.settles_pending settles).2
      have silent := (sound.step event).countP_settles_eq_zero finished rest
      rw [List.countP_cons_of_pos settles]
      omega
    · rw [List.countP_cons_of_neg settles]
      exact ih (sound.step event)

theorem Sound.settledAs {desk : Desk} (sound : desk.Sound) {id : RequestId} {request : Request}
    (found : desk.queue.finished[id]? = some request) : desk.SettledAs id request := by
  have absent : id ∉ desk.queue.pending := by
    intro pending
    exact sound.wellFormed.apart id pending (Queue.mem_finished_iff.mpr ⟨request, found⟩)
  refine ⟨?_, absent, ?_, ?_⟩
  · simp [Queue.get?, Std.ExtTreeMap.getElem?_eq_none absent, found]
  · rintro other listed rfl
    have pending := (sound.wellFormed.mem_requests_iff other).mp listed
    exact absent (Queue.mem_pending_iff.mpr ⟨other, pending⟩)
  · intro decision
    simp only [Desk.step, start, Queue.start, Queue.mark_of_absent absent,
      Queue.refusal_of_finished found]

/-- At most one decision on a request succeeds in a run. Its verdict is the status of the
request in every later state, where the request is no longer pending and every decision
on it is refused without a call. -/
theorem one_settlement_stands (id : RequestId) :
    (∀ events, (empty.run events).1.countP (Report.settles id) ≤ 1) ∧
      ∀ before event decision answer,
        ((empty.run before).2.step event).1 = .finished (.decide id decision) (.ok answer) →
        ∃ verdict request, answer = .decided verdict ∧
          (verdict = .rejected ↔ decision = .reject) ∧
          (empty.run before).2.queue.pending[id]? = some request ∧
          ∀ after, (empty.run (before ++ event :: after)).2.SettledAs id
            { request with status := verdict.status } := by
  refine ⟨sound_empty.countP_settles_le_one id, ?_⟩
  intro before event decision answer reported
  have sound := sound_empty.run before
  have move := step_move sound.wellFormed event
  rw [reported] at move
  obtain ⟨verdict, request, answered, kind, pending, finished⟩ := move.of_success
  refine ⟨verdict, request, answered, kind, pending, ?_⟩
  intro after
  rw [run_append]
  have later := (sound.step event).finished_run finished after
  exact ((sound.step event).run after).settledAs later

def contested : List Event :=
  [.start .refresh, .reply 0 (.ok (.arr [.obj [("id", .ofUInt64 7), ("payload", .null)]])),
    .start (.decide ⟨7⟩ (.confirm .null "")), .start (.decide ⟨7⟩ .reject)]

/-- The rejection is granted first, and then nothing brings the request back. -/
theorem contested_rejection_stands :
    ∃ request, (empty.run contested).2.queue.pending[(⟨7⟩ : RequestId)]? = some request ∧
      ∀ after, (empty.run (contested ++ .reply 2 (.ok (.bool true)) :: after)).2.SettledAs ⟨7⟩
        { request with status := .rejected } := by
  have reported : ((empty.run contested).2.step (.reply 2 (.ok (.bool true)))).1 =
      .finished (.decide ⟨7⟩ .reject) (.ok (.decided .rejected)) := by with_unfolding_all rfl
  obtain ⟨verdict, request, answered, -, pending, stands⟩ :=
    (one_settlement_stands ⟨7⟩).2 contested _ _ _ reported
  cases answered
  exact ⟨request, pending, stands⟩

end Countersign.Desk
