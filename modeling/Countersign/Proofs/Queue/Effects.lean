import Countersign.Proofs.Collections
import Countersign.Queue.Operation

set_option autoImplicit false

/-!
# What the operations do to the queue

One statement for each function of the queue, on what becomes of the entry under an
id. A queue is well formed if it keeps every request under its own id and by its status;
on such a queue a decision has one of three effects: it settles its request, it leaves
a record of a failed attempt, or it leaves the queue as it was.
-/

namespace Countersign

def Verdict.status : Verdict → Status
  | .confirmed outcome => .confirmed outcome
  | .rejected => .rejected

def Verdict.action : Verdict → Action
  | .confirmed outcome => .confirm outcome
  | .rejected => .reject

/-- The verdict that a reply of the node grants. Only `true` grants a rejection. -/
def Decision.granted? : Decision → Reply → Option Verdict
  | .reject, .ok (.bool true) => some .rejected
  | .reject, _ => none
  | _, .ok value => some (.confirmed (Outcome.ofJson value))
  | _, .error _ => none

theorem Decision.granted?_rejected {decision : Decision} {reply : Reply} {verdict : Verdict}
    (granted : decision.granted? reply = some verdict) :
    verdict = .rejected ↔ decision = .reject := by
  unfold Decision.granted? at granted
  split at granted
  · cases granted
    simp
  · cases granted
  · next notReject =>
    cases granted
    simpa using notReject
  · cases granted

theorem Verdict.next_action (verdict : Verdict) :
    (Status.next verdict.action).1 = verdict.status := by
  cases verdict <;> rfl

theorem Verdict.status_isSettled (verdict : Verdict) : verdict.status.isSettled = true := by
  cases verdict <;> rfl

/-- The requests that a reply to a refresh lists, if it can be read in full. -/
def Request.listed? : Reply → Option (List Request)
  | .ok (.arr entries) => (Request.listOfJson entries).toOption
  | _ => none

theorem Request.status_of_ofJson {value : Json} {request : Request}
    (read : Request.ofJson value = .ok request) : request.status = .pending := by
  unfold Request.ofJson at read
  split at read
  · cases read
  · cases read
  · next id payload _ _ =>
    cases readId : RequestId.ofJson id with
    | error e => simp [readId, bind, Except.bind] at read
    | ok id =>
      cases readPayload : Payload.ofJson payload with
      | error e => simp [readId, readPayload, bind, Except.bind] at read
      | ok payload =>
        simp only [readId, readPayload, bind, Except.bind, pure, Except.pure] at read
        cases read
        rfl

theorem Request.status_of_listOfJson {entries : List Json} {requests : List Request}
    (read : Request.listOfJson entries = .ok requests) :
    ∀ request ∈ requests, request.status = .pending := by
  induction entries generalizing requests with
  | nil =>
    cases read
    simp
  | cons entry rest ih =>
    cases readFirst : Request.ofJson entry with
    | error e => simp [Request.listOfJson, readFirst, bind, Except.bind] at read
    | ok first =>
      cases readRest : Request.listOfJson rest with
      | error e => simp [Request.listOfJson, readFirst, readRest, bind, Except.bind] at read
      | ok others =>
        simp only [Request.listOfJson, readFirst, readRest, bind, Except.bind, pure,
          Except.pure] at read
        cases read
        intro request membership
        rcases List.mem_cons.mp membership with rfl | membership
        · exact Request.status_of_ofJson readFirst
        · exact ih readRest request membership

theorem Request.status_of_listed? {reply : Reply} {reported : List Request}
    (listed : Request.listed? reply = some reported) :
    ∀ request ∈ reported, request.status = .pending := by
  unfold Request.listed? at listed
  split at listed
  · next entries =>
    cases read : Request.listOfJson entries with
    | error e => simp [read, Except.toOption] at listed
    | ok requests =>
      simp only [read, Except.toOption, Option.some.injEq] at listed
      exact listed ▸ Request.status_of_listOfJson read
  · cases listed

namespace Queue

theorem mem_pending_iff {q : Queue} {id : RequestId} :
    id ∈ q.pending ↔ ∃ request, q.pending[id]? = some request :=
  mem_iff_getElem?

theorem mem_finished_iff {q : Queue} {id : RequestId} :
    id ∈ q.finished ↔ ∃ request, q.finished[id]? = some request :=
  mem_iff_getElem?

def Knows (q : Queue) (id : RequestId) : Prop := id ∈ q.pending ∨ id ∈ q.finished

/-- Every request is kept under its own id, in one place, and by its status. -/
structure WellFormed (q : Queue) : Prop where
  apart : ∀ id, id ∈ q.pending → id ∉ q.finished
  pendingOwn : ∀ (id : RequestId) (request : Request),
    q.pending[id]? = some request → request.id = id
  pendingStatus : ∀ (id : RequestId) (request : Request),
    q.pending[id]? = some request → request.status = .pending
  finishedOwn : ∀ (id : RequestId) (request : Request),
    q.finished[id]? = some request → request.id = id
  finishedStatus : ∀ (id : RequestId) (request : Request),
    q.finished[id]? = some request → request.status.isSettled = true

theorem wellFormed_empty : empty.WellFormed := by
  constructor <;> simp [empty]

theorem WellFormed.mem_requests_iff {q : Queue} (wf : q.WellFormed) (request : Request) :
    request ∈ q.requests ↔ q.pending[request.id]? = some request := by
  rw [requests, mem_values_iff]
  constructor
  · rintro ⟨id, found⟩
    rw [wf.pendingOwn id request found]
    exact found
  · intro found
    exact ⟨request.id, found⟩

/-! ### Lists from the node -/

@[simp] theorem enter_finished (q : Queue) (request : Request) :
    (q.enter request).finished = q.finished := by
  unfold enter
  split <;> rfl

@[simp] theorem enter_inFlight (q : Queue) (request : Request) :
    (q.enter request).inFlight = q.inFlight := by
  unfold enter
  split <;> rfl

@[simp] theorem enter_log (q : Queue) (request : Request) :
    (q.enter request).log = q.log := by
  unfold enter
  split <;> rfl

theorem foldl_enter_finished (reported : List Request) (q : Queue) :
    (reported.foldl enter q).finished = q.finished := by
  induction reported generalizing q with
  | nil => rfl
  | cons request rest ih => rw [List.foldl_cons, ih, enter_finished]

theorem foldl_enter_inFlight (reported : List Request) (q : Queue) :
    (reported.foldl enter q).inFlight = q.inFlight := by
  induction reported generalizing q with
  | nil => rfl
  | cons request rest ih => rw [List.foldl_cons, ih, enter_inFlight]

theorem foldl_enter_log (reported : List Request) (q : Queue) :
    (reported.foldl enter q).log = q.log := by
  induction reported generalizing q with
  | nil => rfl
  | cons request rest ih => rw [List.foldl_cons, ih, enter_log]

@[simp] theorem receive_finished (q : Queue) (reported : List Request) :
    (q.receive reported).finished = q.finished := foldl_enter_finished _ _

@[simp] theorem receive_inFlight (q : Queue) (reported : List Request) :
    (q.receive reported).inFlight = q.inFlight := foldl_enter_inFlight _ _

@[simp] theorem receive_log (q : Queue) (reported : List Request) :
    (q.receive reported).log = q.log := foldl_enter_log _ _

def reportedAs (reported : List Request) (id : RequestId) : Option Request :=
  reported.find? (·.id == id)

theorem isSome_reportedAs {reported : List Request} {id : RequestId} :
    (reportedAs reported id).isSome = true ↔ ∃ request ∈ reported, request.id = id := by
  simp [reportedAs]

theorem getElem?_enter (q : Queue) (request : Request) (id : RequestId) :
    (q.enter request).pending[id]? =
      q.pending[id]?.or (if request.id = id ∧ id ∉ q.finished then some request else none) := by
  unfold enter
  split
  · next known =>
    cases found : q.pending[id]? with
    | some old => rfl
    | none =>
      have absent : id ∉ q.pending := by simp [mem_pending_iff, found]
      rw [if_neg]
      · rfl
      · rintro ⟨rfl, unsettled⟩
        exact known.elim unsettled absent
  · next unknown =>
    rw [Std.ExtTreeMap.getElem?_insert]
    by_cases same : request.id = id
    · subst same
      have absent : q.pending[request.id]? = none :=
        Std.ExtTreeMap.getElem?_eq_none fun pending => unknown (.inr pending)
      have unsettled : request.id ∉ q.finished := fun settled => unknown (.inl settled)
      simp [absent, unsettled]
    · simp [same]

/-- Entering a list adds the first request of every id that was not known. -/
theorem getElem?_foldl_enter (reported : List Request) (q : Queue) (id : RequestId) :
    (reported.foldl enter q).pending[id]? =
      q.pending[id]?.or (if id ∈ q.finished then none else reportedAs reported id) := by
  induction reported generalizing q with
  | nil => simp [reportedAs]
  | cons request rest ih =>
    rw [List.foldl_cons, ih, getElem?_enter, enter_finished, Option.or_assoc]
    congr 1
    by_cases settled : id ∈ q.finished
    · simp [settled]
    · by_cases same : request.id = id <;> simp [settled, same, reportedAs]

theorem getElem?_retain (q : Queue) (reported : List Request) (id : RequestId) :
    (q.retain reported).pending[id]? =
      if (reportedAs reported id).isSome ∨ id ∈ q.inFlight then q.pending[id]? else none := by
  have kept : (reported.any (·.id == id) || q.inFlight.contains id) = true ↔
      (reportedAs reported id).isSome ∨ id ∈ q.inFlight := by
    simp [isSome_reportedAs]
  simp only [retain]
  rw [Std.ExtTreeMap.getElem?_filter']
  by_cases keeps : (reportedAs reported id).isSome ∨ id ∈ q.inFlight
  · rw [if_pos keeps]
    cases q.pending[id]? with
    | none => rfl
    | some request => rw [Option.filter_some, if_pos (kept.mpr keeps)]
  · rw [if_neg keeps]
    cases q.pending[id]? with
    | none => rfl
    | some request => rw [Option.filter_some, if_neg fun keep => keeps (kept.mp keep)]

/-- What is pending under an id when the node's list has come: what was pending, if it is
listed or in flight, and otherwise what the list has for an id that is not settled. -/
theorem getElem?_receive (q : Queue) (reported : List Request) (id : RequestId) :
    (q.receive reported).pending[id]? =
      (if (reportedAs reported id).isSome ∨ id ∈ q.inFlight then q.pending[id]? else none).or
        (if id ∈ q.finished then none else reportedAs reported id) := by
  rw [receive, getElem?_foldl_enter, getElem?_retain]
  rfl

theorem mem_receive_iff (q : Queue) (reported : List Request) (id : RequestId) :
    id ∈ (q.receive reported).pending ↔
      (id ∈ q.pending ∧ ((reportedAs reported id).isSome ∨ id ∈ q.inFlight)) ∨
        (id ∉ q.finished ∧ (reportedAs reported id).isSome) := by
  rw [← Std.ExtTreeMap.isSome_getElem?_iff_mem, getElem?_receive, Option.isSome_or,
    Bool.or_eq_true]
  apply or_congr
  · by_cases keeps : (reportedAs reported id).isSome ∨ id ∈ q.inFlight
    · rw [if_pos keeps, Std.ExtTreeMap.isSome_getElem?_iff_mem]
      simp [keeps]
    · simp [keeps]
  · by_cases settled : id ∈ q.finished <;> simp [settled]

theorem WellFormed.receive {q : Queue} (wf : q.WellFormed) {reported : List Request}
    (pending : ∀ request ∈ reported, request.status = .pending) :
    (q.receive reported).WellFormed := by
  -- a request that is pending afterwards was pending before or is in the list
  have origin : ∀ (id : RequestId) (request : Request),
      (q.receive reported).pending[id]? = some request →
        q.pending[id]? = some request ∨ reportedAs reported id = some request := by
    intro id request found
    rw [getElem?_receive, Option.or_eq_some_iff] at found
    rcases found with kept | ⟨-, entered⟩
    · split at kept
      · exact .inl kept
      · cases kept
    · split at entered
      · cases entered
      · exact .inr entered
  have reportedIn : ∀ (id : RequestId) (request : Request),
      reportedAs reported id = some request → request.id = id ∧ request ∈ reported := by
    intro id request found
    exact ⟨by simpa using List.find?_some found, List.mem_of_find?_eq_some found⟩
  constructor
  · intro id membership
    rw [receive_finished]
    rcases (mem_receive_iff q reported id).mp membership with ⟨old, -⟩ | ⟨unsettled, -⟩
    · exact wf.apart id old
    · exact unsettled
  · intro id request found
    rcases origin id request found with old | new
    · exact wf.pendingOwn id request old
    · exact (reportedIn id request new).1
  · intro id request found
    rcases origin id request found with old | new
    · exact wf.pendingStatus id request old
    · exact pending request (reportedIn id request new).2
  · rw [receive_finished]
    exact wf.finishedOwn
  · rw [receive_finished]
    exact wf.finishedStatus

/-! ### Decisions -/

theorem mark_of_pending {q : Queue} {id : RequestId} (pending : id ∈ q.pending) :
    q.mark id = .ok { q with inFlight := q.inFlight.insert id } := if_pos pending

theorem mark_of_absent {q : Queue} {id : RequestId} (absent : id ∉ q.pending) :
    q.mark id = .error (q.refusal id) := if_neg absent

theorem refusal_of_finished {q : Queue} {id : RequestId} {request : Request}
    (found : q.finished[id]? = some request) :
    q.refusal id = .alreadySettled id request.status.phase := by
  simp [refusal, found]

theorem refusal_of_unknown {q : Queue} {id : RequestId} (absent : id ∉ q.finished) :
    q.refusal id = .notFound id := by
  simp [refusal, Std.ExtTreeMap.getElem?_eq_none absent]

def settled (q : Queue) (id : RequestId) (request : Request) (verdict : Verdict) : Queue where
  pending := q.pending.erase id
  finished := q.finished.insert id { request with status := verdict.status }
  inFlight := q.inFlight
  log := q.log ++ [⟨id, .pending, verdict.status.phase, (Status.next verdict.action).2⟩]

def attempted (q : Queue) (id : RequestId) : Queue :=
  { q with log := q.log ++ [⟨id, .pending, .pending, .confirmFailed⟩] }

theorem act_of_absent {q : Queue} {id : RequestId} (absent : id ∉ q.pending) (action : Action) :
    q.act id action = .error (q.refusal id) := by
  simp [act, Std.ExtTreeMap.getElem?_eq_none absent]

theorem act_of_pending {q : Queue} {id : RequestId} {request : Request}
    (found : q.pending[id]? = some request) (pending : request.status = .pending)
    (action : Action) :
    q.act id action =
      .ok { q.place id { request with status := (Status.next action).1 } with
        log := q.log ++
          [⟨id, .pending, (Status.next action).1.phase, (Status.next action).2⟩] } := by
  have log : ∀ placed, (q.place id placed).log = q.log := by
    intro placed
    unfold place
    split <;> rfl
  simp [act, found, pending, Status.after, Status.after?, log]

theorem act_verdict {q : Queue} {id : RequestId} {request : Request}
    (found : q.pending[id]? = some request) (pending : request.status = .pending)
    (verdict : Verdict) : q.act id verdict.action = .ok (q.settled id request verdict) := by
  rw [act_of_pending found pending, Verdict.next_action]
  simp [place, settled, Verdict.status_isSettled]

theorem act_confirmFailed {q : Queue} {id : RequestId} {request : Request}
    (found : q.pending[id]? = some request) (pending : request.status = .pending) :
    q.act id .confirmFailed = .ok (q.attempted id) := by
  -- the request goes back to where it was, with the status that it had
  have same : q.pending.insert id request = q.pending := by
    apply Std.ExtTreeMap.ext_getElem?
    intro other
    rw [Std.ExtTreeMap.getElem?_insert]
    by_cases at_id : id = other
    · subst at_id
      simp [found]
    · simp [at_id]
  have unchanged : { request with status := Status.pending } = request := by rw [← pending]
  rw [act_of_pending found pending]
  simp [Status.next, unchanged, place, Status.isSettled, same, attempted, Status.phase]

theorem decided_of_granted (q : Queue) (id : RequestId) {decision : Decision} {reply : Reply}
    {verdict : Verdict} (granted : decision.granted? reply = some verdict) :
    q.decided id reply decision = q.settle id verdict.action verdict := by
  unfold Decision.granted? at granted
  split at granted
  · cases granted
    rfl
  · cases granted
  · next notReject =>
    cases granted
    cases decision with
    | confirm modification password => rfl
    | confirmRaw signed => rfl
    | reject => exact absurd rfl notReject
  · cases granted

/-- A decision that the node does not grant fails; only a confirmation whose call failed
leaves a record. -/
theorem decided_of_not_granted (q : Queue) (id : RequestId) {decision : Decision} {reply : Reply}
    (refused : decision.granted? reply = none) :
    (∃ e, reply = .error e ∧ decision ≠ .reject ∧
        q.decided id reply decision = (.error (.call e), q.recordFailure id)) ∨
      (∃ e, reply = .error e ∧ decision = .reject ∧
        q.decided id reply decision = (.error (.call e), q)) ∨
      (∃ value, reply = .ok value ∧ decision = .reject ∧
        q.decided id reply decision = (.error (.rejectRefused id), q)) := by
  cases decision with
  | confirm modification password =>
    cases reply with
    | error e => exact .inl ⟨e, rfl, by simp, rfl⟩
    | ok value => simp [Decision.granted?] at refused
  | confirmRaw signed =>
    cases reply with
    | error e => exact .inl ⟨e, rfl, by simp, rfl⟩
    | ok value => simp [Decision.granted?] at refused
  | reject =>
    cases reply with
    | error e => exact .inr (.inl ⟨e, rfl, rfl, rfl⟩)
    | ok value =>
      refine .inr (.inr ⟨value, rfl, rfl, ?_⟩)
      simp only [decided, rejected]
      split
      · simp_all [Decision.granted?]
      · rfl
      · next impossible => cases impossible

theorem WellFormed.recordFailure {q : Queue} (wf : q.WellFormed) (id : RequestId) :
    q.recordFailure id = if id ∈ q.pending then q.attempted id else q := by
  by_cases pending : id ∈ q.pending
  · obtain ⟨request, found⟩ := mem_pending_iff.mp pending
    simp [Queue.recordFailure, act_confirmFailed found (wf.pendingStatus id request found),
      pending]
  · simp [Queue.recordFailure, act_of_absent pending, pending]

end Queue

end Countersign
