import Countersign.Proofs.Queue.Failures

set_option autoImplicit false

/-!
# Decisions on different requests do not meet

What a queue has about one id is its sheet. Every step of a decision looks at the sheet of
its own id and at no other, leaves the other sheets as they are, and writes lines about its
own id into the log. Two such steps on different ids come to the same in either order, up
to the order of their lines, and so do the ends of two decisions that wait.
-/

namespace Countersign

structure Sheet where
  pending : Option Request
  finished : Option Request
  inFlight : Bool

theorem Status.id_of_after {id : RequestId} {action : Action} {status next : Status}
    {change : Transition} (legal : status.after id action = .ok (next, change)) :
    change.id = id := by
  cases status with
  | pending =>
    simp only [Status.after, Status.after?, Except.ok.injEq, Prod.mk.injEq] at legal
    rw [← legal.2]
  | _ => simp [Status.after, Status.after?] at legal

namespace Queue

def sheet (q : Queue) (id : RequestId) : Sheet :=
  ⟨q.pending[id]?, q.finished[id]?, q.inFlight.contains id⟩

theorem sheet_eq_iff {q q' : Queue} {id : RequestId} :
    q.sheet id = q'.sheet id ↔ q.pending[id]? = q'.pending[id]? ∧
      q.finished[id]? = q'.finished[id]? ∧ q.inFlight.contains id = q'.inFlight.contains id := by
  simp [sheet]

/-- A queue is its sheets and its log. -/
theorem eq_of_sheets {q q' : Queue} (same : ∀ id, q.sheet id = q'.sheet id) :
    q.pending = q'.pending ∧ q.finished = q'.finished ∧ q.inFlight = q'.inFlight := by
  refine ⟨?_, ?_, ?_⟩
  · apply Std.ExtTreeMap.ext_getElem?
    intro id
    exact (sheet_eq_iff.mp (same id)).1
  · apply Std.ExtTreeMap.ext_getElem?
    intro id
    exact (sheet_eq_iff.mp (same id)).2.1
  · apply Std.ExtTreeSet.ext_contains
    intro id
    exact (sheet_eq_iff.mp (same id)).2.2

theorem refusal_of_sheet {q q' : Queue} {id : RequestId} (same : q.sheet id = q'.sheet id) :
    q.refusal id = q'.refusal id := by
  rw [refusal, refusal, (sheet_eq_iff.mp same).2.1]

theorem sheet_unmark (q : Queue) (id other : RequestId) :
    (q.unmark id).sheet other =
      if id = other then { q.sheet other with inFlight := false } else q.sheet other := by
  by_cases same : id = other <;> simp [sheet, unmark, same]

theorem sheet_place (q : Queue) (id : RequestId) (request : Request) (other : RequestId) :
    (q.place id request).sheet other =
      if id = other then
        if request.status.isSettled then
          { q.sheet other with pending := none, finished := some request }
        else { q.sheet other with pending := some request }
      else q.sheet other := by
  unfold place
  by_cases same : id = other <;> split <;>
    simp [sheet, same, Std.ExtTreeMap.getElem?_insert, Std.ExtTreeMap.getElem?_erase]

/-! ### Steps that are about one id -/

/-- Two queues that have the same about an id take the same step: the results and the new
sheets of the id are equal, the other sheets stay, and the log gets lines about the id. -/
structure Alike {α : Type} (id : RequestId) (q q' : Queue) (stepped stepped' : α × Queue) :
    Prop where
  result : stepped.1 = stepped'.1
  own : stepped.2.sheet id = stepped'.2.sheet id
  others : ∀ other, id ≠ other → stepped.2.sheet other = q.sheet other
  lines : ∃ lines : List Transition, (∀ line ∈ lines, line.id = id) ∧
    stepped.2.log = q.log ++ lines ∧ stepped'.2.log = q'.log ++ lines

theorem alike_unchanged {α : Type} {id : RequestId} {q q' : Queue}
    (same : q.sheet id = q'.sheet id) (value : α) : Alike id q q' (value, q) (value, q') :=
  ⟨rfl, same, fun _ _ => rfl, [], by simp⟩

/-- The step depends on the sheet of the id alone, and changes that sheet alone. -/
def About {α : Type} (id : RequestId) (step : Queue → α × Queue) : Prop :=
  ∀ q q', q.sheet id = q'.sheet id → Alike id q q' (step q) (step q')

section About

variable {α β : Type} {id : RequestId}

theorem About.map {step : Queue → α × Queue} (about : About id step) (f : α → β) :
    About id fun q => (f (step q).1, (step q).2) := by
  intro q q' same
  obtain ⟨result, own, others, lines⟩ := about q q' same
  exact ⟨congrArg f result, own, others, lines⟩

/-- One step after the other, with the result of the first. -/
theorem About.followed {first : Queue → α × Queue} {second : Queue → β × Queue}
    (aboutFirst : About id first) (aboutSecond : About id second) :
    About id fun q => ((first q).1, (second (first q).2).2) := by
  intro q q' same
  obtain ⟨result, own, others, lines, about, written, written'⟩ := aboutFirst q q' same
  obtain ⟨-, own₂, others₂, more, about₂, written₂, written₂'⟩ := aboutSecond _ _ own
  refine ⟨result, own₂, ?_, lines ++ more, ?_, ?_, ?_⟩
  · intro other different
    rw [others₂ other different, others other different]
  · intro line membership
    rcases List.mem_append.mp membership with early | late
    · exact about line early
    · exact about₂ line late
  · rw [written₂, written, List.append_assoc]
  · rw [written₂', written', List.append_assoc]

theorem About.sheet_of_ne {step : Queue → α × Queue} (about : About id step) (q : Queue)
    {other : RequestId} (different : id ≠ other) : (step q).2.sheet other = q.sheet other :=
  (about q q rfl).others other different

theorem About.log_of_ne {step : Queue → α × Queue} (about : About id step) (q : Queue)
    {other : RequestId} (different : id ≠ other) :
    (step q).2.log.filter (·.id == other) = q.log.filter (·.id == other) := by
  obtain ⟨lines, own, written, -⟩ := (about q q rfl).lines
  have silent : lines.filter (·.id == other) = [] := by
    rw [List.filter_eq_nil_iff]
    intro line membership
    rw [own line membership]
    simpa using different
  rw [written, List.filter_append, silent, List.append_nil]

/-- Two steps about different ids do not notice each other. -/
theorem About.comm {first : Queue → α × Queue} {second : Queue → β × Queue} {id' : RequestId}
    (aboutFirst : About id first) (aboutSecond : About id' second) (different : id ≠ id')
    (q : Queue) :
    (first (second q).2).1 = (first q).1 ∧ (second (first q).2).1 = (second q).1 ∧
      (∀ other, (second (first q).2).2.sheet other = (first (second q).2).2.sheet other) ∧
      ∃ lines lines' : List Transition,
        (∀ line ∈ lines, line.id = id) ∧ (∀ line ∈ lines', line.id = id') ∧
          (second (first q).2).2.log = q.log ++ lines ++ lines' ∧
          (first (second q).2).2.log = q.log ++ lines' ++ lines := by
  obtain ⟨result, own, others, lines, mine, late, early⟩ :=
    aboutFirst _ _ (aboutSecond.sheet_of_ne q different.symm)
  obtain ⟨result', own', others', lines', mine', late', early'⟩ :=
    aboutSecond _ _ (aboutFirst.sheet_of_ne q different)
  refine ⟨result, result', ?_, lines, lines', mine, mine', by rw [late', early],
    by rw [late, early']⟩
  intro other
  by_cases here : id = other
  · subst here
    rw [others' id different.symm, own]
  · rw [others other here]
    by_cases there : id' = other
    · subst there
      exact own'
    · rw [others' other there, aboutFirst.sheet_of_ne q here, aboutSecond.sheet_of_ne q there]

end About

/-! ### The steps of a decision -/

theorem about_settle (id : RequestId) (action : Action) (verdict : Verdict) :
    About id fun q => q.settle id action verdict := by
  intro q q' same
  have samePending := (sheet_eq_iff.mp same).1
  cases found : q.pending[id]? with
  | none =>
    simp only [settle, act, found, ← samePending, refusal_of_sheet same]
    exact alike_unchanged same _
  | some request =>
    cases after : request.status.after id action with
    | error e =>
      simp only [settle, act, found, ← samePending, after]
      exact alike_unchanged same _
    | ok changed =>
      obtain ⟨status, change⟩ := changed
      have log : ∀ q : Queue, (q.place id { request with status := status }).log = q.log := by
        intro q
        unfold place
        split <;> rfl
      simp only [settle, act, found, ← samePending, after, log]
      refine ⟨rfl, ?_, ?_, [change], ?_, rfl, rfl⟩
      · change (q.place id _).sheet id = (q'.place id _).sheet id
        rw [sheet_place, sheet_place, same]
      · intro other different
        change (q.place id _).sheet other = _
        rw [sheet_place, if_neg different]
      · simpa using Status.id_of_after after

theorem about_recordFailure {α : Type} (id : RequestId) (value : α) :
    About id fun q => (value, q.recordFailure id) := by
  have settled : ∀ q : Queue, q.recordFailure id = (q.settle id .confirmFailed .rejected).2 := by
    intro q
    unfold recordFailure settle
    split <;> rfl
  simp only [settled]
  exact (about_settle id .confirmFailed .rejected).map fun _ => value

theorem about_confirmed (id : RequestId) (reply : Reply) :
    About id fun q => q.confirmed id reply := by
  cases reply with
  | ok value => exact about_settle id _ _
  | error e => exact about_recordFailure id _

theorem about_rejected (id : RequestId) (reply : Reply) :
    About id fun q => q.rejected id reply := by
  cases reply with
  | error e => exact fun _ _ same => alike_unchanged same _
  | ok value =>
    by_cases granted : value = .bool true
    · subst granted
      exact about_settle id .reject .rejected
    · have refused : ∀ q : Queue, q.rejected id (.ok value) = (.error (.rejectRefused id), q) := by
        intro q
        unfold rejected
        split
        · next same =>
          cases same
          exact absurd rfl granted
        · rfl
        · next impossible => cases impossible
      simp only [refused]
      exact fun _ _ same => alike_unchanged same _

theorem about_conclude (id : RequestId) (decision : Decision) (reply : Reply) :
    About id fun q => q.conclude reply (.decide id decision) := by
  have decided : About id fun q => q.decided id reply decision := by
    cases decision with
    | confirm modification password => exact about_confirmed id reply
    | confirmRaw signed => exact about_confirmed id reply
    | reject => exact about_rejected id reply
  exact decided.map (·.map Answer.decided)

theorem about_cancel {α : Type} (id : RequestId) (decision : Decision) (value : α) :
    About id fun q => (value, q.cancel (.decide id decision)) := by
  intro q q' same
  refine ⟨rfl, ?_, ?_, [], by simp, ?_, ?_⟩
  · change (q.unmark id).sheet id = (q'.unmark id).sheet id
    rw [sheet_unmark, sheet_unmark, same]
  · intro other different
    change (q.unmark id).sheet other = _
    rw [sheet_unmark, if_neg different]
  · simp [cancel, unmark]
  · simp [cancel, unmark]

theorem about_finish (id : RequestId) (decision : Decision) (reply : Reply) :
    About id fun q => q.finish (.decide id decision) reply :=
  (about_conclude id decision reply).followed (about_cancel id decision ())

/-- The steps of a decision on a request: it begins, its reply is taken in, its mark goes. -/
inductive DecisionStep (id : RequestId) (decision : Decision) (q : Queue) : Queue → Prop where
  | begins {next : Queue} : q.start (.decide id decision) = .ok next →
      DecisionStep id decision q next
  | concludes (reply : Reply) :
      DecisionStep id decision q (q.conclude reply (.decide id decision)).2
  | ends : DecisionStep id decision q (q.cancel (.decide id decision))

theorem DecisionStep.others {id : RequestId} {decision : Decision} {q next : Queue}
    (step : DecisionStep id decision q next) {other : RequestId} (different : id ≠ other) :
    next.sheet other = q.sheet other ∧
      next.log.filter (·.id == other) = q.log.filter (·.id == other) := by
  cases step with
  | begins begun =>
    by_cases pending : id ∈ q.pending
    · simp only [start, mark_of_pending pending, Except.ok.injEq] at begun
      subst begun
      exact ⟨by simp [sheet, different], rfl⟩
    · simp [start, mark_of_absent pending] at begun
  | concludes reply =>
    have about := about_conclude id decision reply
    exact ⟨about.sheet_of_ne q different, about.log_of_ne q different⟩
  | ends =>
    have about := about_cancel id decision ()
    exact ⟨about.sheet_of_ne q different, about.log_of_ne q different⟩

end Queue

namespace Desk

def completion (ticket : Nat) : Option Reply → Event
  | some reply => .reply ticket reply
  | none => .cancel ticket

def completed (op : Operation) (reply : Option Reply) (q : Queue) : Report × Queue :=
  match reply with
  | some reply => (.finished op (q.finish op reply).1, (q.finish op reply).2)
  | none => (.cancelled op, q.cancel op)

theorem step_completion {desk : Desk} {ticket : Nat} {op : Operation}
    (waits : desk.waiting.lookup ticket = some op) (reply : Option Reply) :
    desk.step (completion ticket reply) =
      ((completed op reply desk.queue).1,
        desk.ending ticket (completed op reply desk.queue).2) := by
  cases reply with
  | some reply => exact step_reply_eq waits rfl
  | none =>
    simp only [completion, step, waits]
    rfl

theorem about_completed (id : RequestId) (decision : Decision) (reply : Option Reply) :
    Queue.About id (completed (.decide id decision) reply) := by
  cases reply with
  | some reply =>
    exact (Queue.about_finish id decision reply).map (Report.finished (.decide id decision))
  | none => exact Queue.about_cancel id decision _

theorem run_completions {desk : Desk} {first second : Nat} {op op' : Operation}
    (waits : desk.waiting.lookup first = some op) (waits' : desk.waiting.lookup second = some op')
    (different : first ≠ second) (reply reply' : Option Reply) :
    desk.run [completion first reply, completion second reply'] =
      ([(completed op reply desk.queue).1,
          (completed op' reply' (completed op reply desk.queue).2).1],
        (desk.ending first (completed op reply desk.queue).2).ending second
          (completed op' reply' (completed op reply desk.queue).2).2) := by
  have later : (desk.ending first (completed op reply desk.queue).2).waiting.lookup second =
      some op' := by
    rw [ending, others, lookup_filter_ne different.symm, waits']
  simp only [run, step_completion waits, step_completion later]
  rfl

/-- No step of a decision changes what the queue has about another request. Two decisions
on different requests that wait may end in either order, each with any reply or none: each
reports what it would report alone, and the queue is the same up to the order of their
lines in the log. -/
theorem decisions_are_independent (events : List Event) :
    let desk := (empty.run events).2
    (∀ id decision next other, Queue.DecisionStep id decision desk.queue next → id ≠ other →
      next.pending[other]? = desk.queue.pending[other]? ∧
      next.finished[other]? = desk.queue.finished[other]? ∧
      (other ∈ next.inFlight ↔ other ∈ desk.queue.inFlight) ∧
      next.log.filter (·.id == other) = desk.queue.log.filter (·.id == other)) ∧
    ∀ first second id id' decision decision',
      desk.waiting.lookup first = some (.decide id decision) →
      desk.waiting.lookup second = some (.decide id' decision') → id ≠ id' →
      ∀ reply reply' : Option Reply,
        let report := (desk.step (completion first reply)).1
        let report' := (desk.step (completion second reply')).1
        let forth := desk.run [completion first reply, completion second reply']
        let back := desk.run [completion second reply', completion first reply]
        forth.1 = [report, report'] ∧ back.1 = [report', report] ∧
        forth.2.queue.pending = back.2.queue.pending ∧
        forth.2.queue.finished = back.2.queue.finished ∧
        forth.2.queue.inFlight = back.2.queue.inFlight ∧
        ∃ lines lines' : List Transition,
          (∀ line ∈ lines, line.id = id) ∧ (∀ line ∈ lines', line.id = id') ∧
          forth.2.queue.log = desk.queue.log ++ lines ++ lines' ∧
          back.2.queue.log = desk.queue.log ++ lines' ++ lines := by
  intro desk
  refine ⟨?_, ?_⟩
  · intro id decision next other step different
    obtain ⟨sheet, log⟩ := step.others different
    obtain ⟨pending, finished, inFlight⟩ := Queue.sheet_eq_iff.mp sheet
    refine ⟨pending, finished, ?_, log⟩
    rw [← Std.ExtTreeSet.contains_iff_mem, inFlight, Std.ExtTreeSet.contains_iff_mem]
  · intro first second id id' decision decision' waits waits' different reply reply'
    have apart : first ≠ second := by
      rintro rfl
      cases waits.symm.trans waits'
      exact different rfl
    obtain ⟨same, same', sheets, lines⟩ := (about_completed id decision reply).comm
      (about_completed id' decision' reply') different desk.queue
    obtain ⟨pending, finished, inFlight⟩ := Queue.eq_of_sheets sheets
    simp only [run_completions waits waits' apart, run_completions waits' waits apart.symm,
      step_completion waits, step_completion waits', same, same', true_and]
    exact ⟨pending, finished, inFlight, lines⟩

def twofold : List Event :=
  [.start .refresh,
    .reply 0 (.ok (.arr [.obj [("id", .ofUInt64 7), ("payload", .null)],
      .obj [("id", .ofUInt64 9), ("payload", .null)]])),
    .start (.decide ⟨7⟩ (.confirm .null "")), .start (.decide ⟨9⟩ .reject)]

/-- The confirmation fails and the rejection is granted, in either order. -/
theorem twofold_decisions_independent :
    let desk := (empty.run twofold).2
    let failed := Event.reply 1 (.error .connectionClosed)
    let granted := Event.reply 2 (.ok (.bool true))
    desk.waiting.lookup 1 = some (.decide ⟨7⟩ (.confirm .null "")) ∧
      desk.waiting.lookup 2 = some (.decide ⟨9⟩ .reject) ∧
      (desk.queue.cancel (.decide ⟨9⟩ .reject)).pending[(⟨7⟩ : RequestId)]? =
        desk.queue.pending[(⟨7⟩ : RequestId)]? ∧
      (desk.run [failed, granted]).1 = [(desk.step failed).1, (desk.step granted).1] ∧
      (desk.run [granted, failed]).1 = [(desk.step granted).1, (desk.step failed).1] ∧
      (desk.run [failed, granted]).2.queue.finished =
        (desk.run [granted, failed]).2.queue.finished := by
  intro desk failed granted
  have confirms : desk.waiting.lookup 1 = some (.decide ⟨7⟩ (.confirm .null "")) := by
    with_unfolding_all rfl
  have rejects : desk.waiting.lookup 2 = some (.decide ⟨9⟩ .reject) := by with_unfolding_all rfl
  obtain ⟨others, ends⟩ := decisions_are_independent twofold
  obtain ⟨kept, -⟩ := others ⟨9⟩ .reject _ ⟨7⟩ .ends (by decide)
  obtain ⟨forth, back, -, finished, -⟩ := ends 1 2 ⟨7⟩ ⟨9⟩ _ _ confirms rejects (by decide)
    (some (.error .connectionClosed)) (some (.ok (.bool true)))
  exact ⟨confirms, rejects, kept, forth, back, finished⟩

end Desk

end Countersign
