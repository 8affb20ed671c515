import Countersign.Proofs.Queue.Failures
import Mathlib.Data.List.Forall2

set_option autoImplicit false

/-!
# What a list of the node makes of the queue

A list touches nothing but what is pending. A request stays pending, as it was, if it is
listed or in flight, and a listed one that is not known comes in, as it is first listed.
The answer is what is pending then, in the order of the ids. Whoever hears the same list
once more learns nothing new from it.
-/

namespace Countersign

namespace Request

structure Describes (entry : Json) (request : Request) : Prop where
  id : (entry.get? "id").bind Quantity.ofJson? = some request.id.val
  payload : (entry.get? "payload").map Payload.ofJson = some (.ok request.payload)
  origin : request.origin = (entry.get? "origin").getD .null
  status : request.status = .pending

/-- An entry can be read exactly if it describes a request, and then it is read as that one. -/
theorem ofJson_eq_ok_iff {entry : Json} {request : Request} :
    ofJson entry = .ok request ↔ Describes entry request := by
  have readId : ∀ (value : Json) (id : RequestId),
      RequestId.ofJson value = .ok id ↔ Quantity.ofJson? value = some id.val := by
    intro value id
    cases quantity : Quantity.ofJson? value with
    | none => simp [RequestId.ofJson, RequestId.ofJson?, quantity]
    | some n =>
      obtain ⟨val⟩ := id
      simp [RequestId.ofJson, RequestId.ofJson?, quantity]
  constructor
  · intro read
    unfold ofJson at read
    split at read
    · cases read
    · cases read
    · next id payload idMember payloadMember =>
      cases named : RequestId.ofJson id with
      | error e => simp [named, bind, Except.bind] at read
      | ok number =>
        cases loaded : Payload.ofJson payload with
        | error e => simp [named, loaded, bind, Except.bind] at read
        | ok content =>
          simp only [named, loaded, bind, Except.bind, pure, Except.pure] at read
          cases read
          refine ⟨?_, ?_, rfl, rfl⟩
          · rw [idMember, Option.bind_some]
            exact (readId id number).mp named
          · rw [payloadMember, Option.map_some, loaded]
  · rintro ⟨named, loaded, origin, status⟩
    obtain ⟨id, idMember, quantity⟩ := Option.bind_eq_some_iff.mp named
    obtain ⟨payload, payloadMember, readPayload⟩ := Option.map_eq_some_iff.mp loaded
    simp only [ofJson, idMember, payloadMember, (readId id request.id).mpr quantity, readPayload,
      bind, Except.bind, pure, Except.pure, ← origin, ← status]

theorem listOfJson_of_described {entries : List Json} {reported : List Request}
    (described : List.Forall₂ Describes entries reported) :
    listOfJson entries = .ok reported := by
  induction described with
  | nil => rfl
  | cons first _ ih =>
    simp only [listOfJson, ofJson_eq_ok_iff.mpr first, ih, bind, Except.bind, pure, Except.pure]

theorem listed?_of_described {entries : List Json} {reported : List Request}
    (described : List.Forall₂ Describes entries reported) :
    listed? (.ok (.arr entries)) = some reported := by
  simp only [listed?, listOfJson_of_described described, Except.toOption]

def FirstUnder (reported : List Request) (id : RequestId) (request : Request) : Prop :=
  ∃ before after, reported = before ++ request :: after ∧ request.id = id ∧
    ∀ earlier ∈ before, earlier.id ≠ id

theorem reportedAs_eq_some_iff {reported : List Request} {id : RequestId} {request : Request} :
    Queue.reportedAs reported id = some request ↔ FirstUnder reported id request := by
  unfold Queue.reportedAs FirstUnder
  rw [List.find?_eq_some_iff_append]
  constructor
  · rintro ⟨same, before, after, split, earlier⟩
    exact ⟨before, after, split, by simpa using same, by simpa using earlier⟩
  · rintro ⟨before, after, split, same, earlier⟩
    exact ⟨by simpa using same, before, after, split, by simpa using earlier⟩

theorem isSome_reportedAs_iff {reported : List Request} {id : RequestId} :
    (Queue.reportedAs reported id).isSome = true ↔ id ∈ reported.map Request.id := by
  rw [Queue.isSome_reportedAs, List.mem_map]

end Request

namespace Queue

theorem WellFormed.requests_ascend {q : Queue} (wf : q.WellFormed) :
    q.requests.Pairwise (·.id.val < ·.id.val) := by
  have own : ∀ entry ∈ q.pending.toList, entry.2.id = entry.1 := by
    intro entry membership
    exact wf.pendingOwn entry.1 entry.2
      (Std.ExtTreeMap.mem_toList_iff_getElem?_eq_some.mp membership)
  rw [requests, values_eq_map_toList, List.pairwise_map]
  refine Std.ExtTreeMap.ordered_keys_toList.imp_of_mem ?_
  intro first second inFirst inSecond ordered
  rw [own first inFirst, own second inSecond]
  exact compareOfLessAndEq_eq_lt.mp ordered

theorem getElem?_receive_of_pending {q : Queue} {reported : List Request} {id : RequestId}
    (before : id ∈ q.pending) (after : id ∈ (q.receive reported).pending) :
    (q.receive reported).pending[id]? = q.pending[id]? := by
  obtain ⟨request, found⟩ := mem_pending_iff.mp before
  have stays : (reportedAs reported id).isSome ∨ id ∈ q.inFlight := by
    rcases (mem_receive_iff q reported id).mp after with ⟨-, stays⟩ | ⟨-, listed⟩
    · exact stays
    · exact .inl listed
  rw [getElem?_receive, if_pos stays, found]
  rfl

theorem getElem?_receive_of_absent {q : Queue} {reported : List Request} {id : RequestId}
    (absent : id ∉ q.pending) (unsettled : id ∉ q.finished) :
    (q.receive reported).pending[id]? = reportedAs reported id := by
  rw [getElem?_receive, Std.ExtTreeMap.getElem?_eq_none absent, ite_self, if_neg unsettled,
    Option.none_or]

/-- A list that comes again, with nothing in between, changes nothing. -/
theorem receive_receive (q : Queue) (reported : List Request) :
    (q.receive reported).receive reported = q.receive reported := by
  apply Queue.ext
  · apply Std.ExtTreeMap.ext_getElem?
    intro id
    rw [getElem?_receive (q.receive reported), receive_inFlight, receive_finished, getElem?_receive]
    by_cases listed : (reportedAs reported id).isSome ∨ id ∈ q.inFlight
    · rw [if_pos listed, if_pos listed, Option.or_assoc, Option.or_self]
    · -- an id that is not listed brings nothing in
      have unlisted : reportedAs reported id = none := by
        rw [← Option.not_isSome_iff_eq_none]
        exact fun named => listed (.inl named)
      rw [if_neg listed, if_neg listed, unlisted, ite_self]
  · simp
  · simp
  · simp

/-- The next queue is this one once a list of the node has been taken in. -/
structure Reconciled (q : Queue) (reported : List Request) (next : Queue) : Prop where
  finished : next.finished = q.finished
  inFlight : next.inFlight = q.inFlight
  log : next.log = q.log
  pending : ∀ id, id ∈ next.pending ↔
    (id ∈ q.pending ∧ (id ∈ reported.map Request.id ∨ id ∈ q.inFlight)) ∨
      (id ∈ reported.map Request.id ∧ id ∉ q.finished)
  kept : ∀ id ∈ next.pending, id ∈ q.pending → next.pending[id]? = q.pending[id]?
  entered : ∀ id ∈ next.pending, id ∉ q.pending →
    ∃ request, next.pending[id]? = some request ∧ Request.FirstUnder reported id request ∧
      request.status = .pending

theorem reconciled_receive (q : Queue) {reported : List Request}
    (unsettled : ∀ request ∈ reported, request.status = .pending) :
    q.Reconciled reported (q.receive reported) where
  finished := receive_finished q reported
  inFlight := receive_inFlight q reported
  log := receive_log q reported
  pending := by
    intro id
    rw [mem_receive_iff, Request.isSome_reportedAs_iff, and_comm (a := id ∉ q.finished)]
  kept := by
    intro id after before
    exact getElem?_receive_of_pending before after
  entered := by
    intro id after absent
    have fresh : id ∉ q.finished := by
      rcases (mem_receive_iff q reported id).mp after with ⟨before, -⟩ | ⟨fresh, -⟩
      · exact absurd before absent
      · exact fresh
    obtain ⟨request, found⟩ := mem_pending_iff.mp after
    have first : reportedAs reported id = some request := by
      rw [← getElem?_receive_of_absent absent fresh, found]
    exact ⟨request, found, Request.reportedAs_eq_some_iff.mp first,
      unsettled request (List.mem_of_find?_eq_some first)⟩

theorem finish_refresh_of_described (q : Queue) {entries : List Json} {reported : List Request}
    (described : List.Forall₂ Request.Describes entries reported) :
    q.finish .refresh (.ok (.arr entries)) =
      (.ok (.listed (q.receive reported).requests), q.receive reported) := by
  simp only [finish, conclude, q.listed_of_listed? (Request.listed?_of_described described)]
  rfl

end Queue

namespace Desk

/-- A refresh that hears of any list of entries that can be read succeeds. It answers with
what is pending then, in the order of the ids, and a refresh that hears of the same list
right after it gives the same answer and leaves everything as it is. -/
theorem refresh_reconciles {events : List Event} {ticket : Nat}
    (waits : (empty.run events).2.waiting.lookup ticket = some .refresh) {entries : List Json}
    {reported : List Request} (described : List.Forall₂ Request.Describes entries reported) :
    let desk := (empty.run events).2
    ∃ answer next,
      desk.step (.reply ticket (.ok (.arr entries))) =
        (.finished .refresh (.ok (.listed answer)), desk.ending ticket next) ∧
      desk.queue.Reconciled reported next ∧
      answer.Pairwise (·.id.val < ·.id.val) ∧
      (∀ request, request ∈ answer ↔ ∃ id : RequestId, next.pending[id]? = some request) ∧
      ∀ (later : Desk) (again : Nat), later.queue = next →
        later.waiting.lookup again = some .refresh →
        later.step (.reply again (.ok (.arr entries))) =
          (.finished .refresh (.ok (.listed answer)), later.ending again next) := by
  intro desk
  have unsettled := Request.status_of_listed? (Request.listed?_of_described described)
  have wf : (desk.queue.receive reported).WellFormed :=
    (sound_empty.run events).wellFormed.receive unsettled
  refine ⟨(desk.queue.receive reported).requests, desk.queue.receive reported,
    step_reply_eq waits (desk.queue.finish_refresh_of_described described),
    desk.queue.reconciled_receive unsettled, wf.requests_ascend, mem_values_iff _, ?_⟩
  intro later again same waitsAgain
  apply step_reply_eq waitsAgain
  rw [same, Queue.finish_refresh_of_described _ described, Queue.receive_receive]

/-- The node has listed three requests; one has been rejected, a confirmation of another
waits, and so does a refresh. -/
def dispersed : List Event :=
  [.start .refresh,
    .reply 0 (.ok (.arr [.obj [("id", .ofUInt64 3), ("payload", .null)],
      .obj [("id", .ofUInt64 5), ("payload", .null)],
      .obj [("id", .ofUInt64 7), ("payload", .null)]])),
    .start (.decide ⟨5⟩ .reject), .reply 1 (.ok (.bool true)),
    .start (.decide ⟨7⟩ (.confirm .null "")), .start .refresh]

/-- The node lists a new request twice, with its id spelled in two ways, and the one that
has been rejected. -/
def dispersal : List Json :=
  [.obj [("id", .str "0x9"), ("payload", .bool true)],
    .obj [("id", .ofUInt64 5), ("payload", .null)],
    .obj [("id", .str "+9"), ("origin", .str "web"), ("payload", .null)]]

/-- The third request goes, the one in flight stays, and the new one comes in as it is first
listed. -/
theorem dispersed_refresh_reconciles :
    ∃ answer next,
      (empty.run dispersed).2.step (.reply 3 (.ok (.arr dispersal))) =
        (.finished .refresh (.ok (.listed answer)), (empty.run dispersed).2.ending 3 next) ∧
      (⟨3⟩ : RequestId) ∉ next.pending ∧ (⟨5⟩ : RequestId) ∉ next.pending ∧
      (⟨7⟩ : RequestId) ∈ next.pending ∧
      next.pending[(⟨9⟩ : RequestId)]? = some ⟨⟨9⟩, .null, .other (.bool true), .pending⟩ := by
  have waits : (empty.run dispersed).2.waiting.lookup 3 = some .refresh := by
    with_unfolding_all rfl
  have described : List.Forall₂ Request.Describes dispersal
      [⟨⟨9⟩, .null, .other (.bool true), .pending⟩, ⟨⟨5⟩, .null, .other .null, .pending⟩,
        ⟨⟨9⟩, .str "web", .other .null, .pending⟩] := by
    refine .cons ⟨?_, rfl, rfl, rfl⟩ <| .cons ⟨?_, rfl, rfl, rfl⟩ <|
      .cons ⟨?_, rfl, rfl, rfl⟩ .nil <;> decide +kernel
  obtain ⟨answer, next, stepped, reconciled, -⟩ := refresh_reconciles waits described
  refine ⟨answer, next, stepped, ?_, ?_, ?_, ?_⟩
  · rw [reconciled.pending]
    decide +kernel
  · rw [reconciled.pending]
    decide +kernel
  · rw [reconciled.pending]
    decide +kernel
  · have there : (⟨9⟩ : RequestId) ∈ next.pending := by
      rw [reconciled.pending]
      decide +kernel
    obtain ⟨request, found, first, -⟩ := reconciled.entered ⟨9⟩ there (by decide +kernel)
    rw [found, ← Request.reportedAs_eq_some_iff.mpr first]
    rfl

end Desk

end Countersign
