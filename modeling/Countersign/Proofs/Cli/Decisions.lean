import Countersign.Proofs.Cli.Runs
import Countersign.Proofs.Queue.Listing

set_option autoImplicit false

/-!
# Only what is listed is decided on

A command that confirms or rejects a request fetches the node's list first, and makes its
decision only if the list can be read in full and has the request in it, in whatever way
the id is spelled there or on the command line. It succeeds exactly if the node then grants
the decision.
-/

namespace Countersign

namespace Request

theorem listOfJson_eq_ok_iff {entries : List Json} {reported : List Request} :
    listOfJson entries = .ok reported ↔ List.Forall₂ Describes entries reported := by
  refine ⟨?_, listOfJson_of_described⟩
  intro read
  induction entries generalizing reported with
  | nil =>
    cases read
    exact .nil
  | cons entry rest ih =>
    cases readFirst : ofJson entry with
    | error e => simp [listOfJson, readFirst, bind, Except.bind] at read
    | ok first =>
      cases readRest : listOfJson rest with
      | error e => simp [listOfJson, readFirst, readRest, bind, Except.bind] at read
      | ok others =>
        simp only [listOfJson, readFirst, readRest, bind, Except.bind, pure, Except.pure] at read
        cases read
        exact .cons (ofJson_eq_ok_iff.mp readFirst) (ih readRest)

def idOf? (entry : Json) : Option UInt64 := (entry.get? "id").bind Quantity.ofJson?

theorem exists_entry_iff {entries : List Json} {reported : List Request} {id : UInt64}
    (described : List.Forall₂ Describes entries reported) :
    (∃ entry ∈ entries, idOf? entry = some id) ↔ ∃ request ∈ reported, request.id = ⟨id⟩ := by
  induction described with
  | nil => simp
  | @cons entry request _ _ first _ ih =>
    have same : idOf? entry = some id ↔ request.id = ⟨id⟩ := by
      rw [idOf?, first.id, Option.some.injEq]
      cases request.id
      simp
    rw [List.exists_mem_cons_iff, List.exists_mem_cons_iff, same, ih]

theorem exists_described_iff {entries : List Json} :
    (∃ reported, List.Forall₂ Describes entries reported) ↔
      ∀ entry ∈ entries, ∃ request, Describes entry request := by
  induction entries with
  | nil => simp
  | cons entry rest ih =>
    rw [List.forall_mem_cons, ← ih]
    constructor
    · rintro ⟨_, described⟩
      cases described with
      | cons first others => exact ⟨⟨_, first⟩, ⟨_, others⟩⟩
    · rintro ⟨⟨request, first⟩, ⟨reported, others⟩⟩
      exact ⟨request :: reported, .cons first others⟩

end Request

namespace Cli

open Http (answerAt)
open Tracker (Policy)

/-- The answer is a list that can be read in full and has an entry of that number. -/
def Lists (answer : Option Reply) (id : UInt64) : Prop :=
  ∃ entries, answer = some (.ok (.arr entries)) ∧
    (∀ entry ∈ entries, ∃ request, Request.Describes entry request) ∧
    ∃ entry ∈ entries, Request.idOf? entry = some id

theorem lists_iff {reply : Reply} {id : UInt64} :
    Lists (some reply) id ↔
      ∃ reported, Request.listed? reply = some reported ∧ ∃ request ∈ reported, request.id = ⟨id⟩ := by
  constructor
  · rintro ⟨entries, answer, readable, entry⟩
    obtain ⟨reported, described⟩ := Request.exists_described_iff.mpr readable
    cases answer
    exact ⟨reported, Request.listed?_of_described described,
      (Request.exists_entry_iff described).mp entry⟩
  · rintro ⟨reported, listed, request⟩
    unfold Request.listed? at listed
    split at listed
    · next entries =>
      have described : List.Forall₂ Request.Describes entries reported := by
        apply Request.listOfJson_eq_ok_iff.mp
        cases read : Request.listOfJson entries with
        | error e => simp [read, Except.toOption] at listed
        | ok requests =>
          rw [read] at listed
          exact congrArg Except.ok (Option.some.inj listed)
      exact ⟨entries, rfl, Request.exists_described_iff.mp ⟨reported, described⟩,
        (Request.exists_entry_iff described).mpr request⟩
    · cases listed

theorem lists_iff_test {answer : Option Reply} {id : UInt64} :
    Lists answer id ↔
      (answer.bind Request.listed?).any (fun reported => reported.any (·.id == ⟨id⟩)) = true := by
  cases answer with
  | none => simp [Lists]
  | some reply =>
    rw [lists_iff, Option.bind_some]
    cases Request.listed? reply <;> simp

instance (answer : Option Reply) (id : UInt64) : Decidable (Lists answer id) :=
  decidable_of_iff _ lists_iff_test.symm

/-! ### The turns of a decision -/

section Turns

variable (policy : Policy) (decision : Decision) {id : RequestId} {reply : Reply}

theorem turn_lookUp_of_listed (listed : Lists (some reply) id.val) :
    ∃ queue : Queue, (Job.lookUp id decision).turn policy reply =
        .next [] none (.decide id decision queue) ∧
      ∃ request, queue.pending[id]? = some request ∧ request.status = .pending := by
  obtain ⟨reported, read, there⟩ := lists_iff.mp listed
  have pending : id ∈ (Queue.empty.receive reported).pending := by
    rw [Queue.mem_receive_iff, Queue.isSome_reportedAs]
    exact .inr ⟨by simp [Queue.empty], there⟩
  -- what has just come in is pending, so nothing but the node can refuse the decision
  have wf : (Queue.empty.receive reported).WellFormed :=
    Queue.wellFormed_empty.receive (Request.status_of_listed? read)
  obtain ⟨request, found⟩ := Queue.mem_pending_iff.mp pending
  refine ⟨{ Queue.empty.receive reported with
    inFlight := (Queue.empty.receive reported).inFlight.insert id }, ?_, request, found,
    wf.pendingStatus id request found⟩
  cases reply with
  | error e => cases read
  | ok value =>
    simp only [Job.turn, Job.heard, Queue.empty.listed_of_listed? read, Job.decideOn, Queue.start,
      Queue.mark_of_pending pending]

theorem turn_lookUp_of_unlisted (unlisted : ¬Lists (some reply) id.val) :
    ∃ failure, (Job.lookUp id decision).turn policy reply = .done (.ofFailure failure) := by
  cases reply with
  | error e => exact ⟨_, rfl⟩
  | ok value =>
    simp only [Job.turn, Job.heard]
    cases read : Request.listed? (.ok value) with
    | none =>
      obtain ⟨failure, -, failed⟩ := Queue.empty.listed_of_not_listed? read
      exact ⟨failure, by rw [failed]⟩
    | some reported =>
      have absent : id ∉ (Queue.empty.receive reported).pending := by
        rw [Queue.mem_receive_iff, Queue.isSome_reportedAs]
        rintro (⟨before, -⟩ | ⟨-, there⟩)
        · simp [Queue.empty] at before
        · exact unlisted (lists_iff.mpr ⟨reported, read, there⟩)
      refine ⟨(Queue.empty.receive reported).refusal id, ?_⟩
      simp only [Queue.empty.listed_of_listed? read, Job.decideOn, Queue.start,
        Queue.mark_of_absent absent]

theorem turn_decide (reply : Reply) {queue : Queue} {request : Request}
    (found : queue.pending[id]? = some request)
    (pending : request.status = .pending) :
    ∃ ending, (Job.decide id decision queue).turn policy reply = .done ending ∧
      (ending.failure = none ↔ ∃ verdict, decision.granted? reply = some verdict) := by
  refine ⟨.ofVerdict id (queue.decided id reply decision).1, by cases reply <;> rfl, ?_⟩
  cases granted : decision.granted? reply with
  | some verdict =>
    rw [queue.decided_of_granted id granted, Queue.settle, Queue.act_verdict found pending]
    simp [Ending.ofVerdict, Ending.success]
  | none =>
    rcases queue.decided_of_not_granted id granted with
      ⟨e, -, -, failed⟩ | ⟨e, -, -, failed⟩ | ⟨value, -, -, failed⟩
    · simp [failed, Ending.ofVerdict, Ending.ofFailure]
    · simp [failed, Ending.ofVerdict, Ending.ofFailure]
    · simp [failed, Ending.ofVerdict, Ending.ofFailure]

end Turns

section LookUp

variable (policy : Policy) (client : Http.Client) (decision : Decision) {id : RequestId}
  {reactions : List Http.Reaction}

theorem runJob_lookUp_of_listed
    (listed : Lists (answerAt client.timeout reactions 0) id.val) :
    let run := runJob policy client (.lookUp id decision) reactions
    run.requests =
        [client.encoder.envelope Operation.refresh.call,
          (client.past 1).encoder.envelope (decision.call id)] ∧
      (run.code = some 0 ↔ ∃ reply verdict,
        answerAt client.timeout reactions 1 = some reply ∧ decision.granted? reply = some verdict) := by
  obtain ⟨reply, answered⟩ : ∃ reply, answerAt client.timeout reactions 0 = some reply := by
    obtain ⟨entries, answered, -⟩ := listed
    exact ⟨_, answered⟩
  rw [answered] at listed
  obtain ⟨queue, looked, request, found, pending⟩ := turn_lookUp_of_listed policy decision listed
  rw [runJob_step, answered, Option.elim_some, looked]
  simp only [Run.preceded_requests, Run.preceded_code, Turn.run_next_requests, Turn.run_next_code]
  rw [runJob_step, Http.Client.past_timeout, Http.answerAt_drop]
  cases second : answerAt client.timeout reactions (1 + 0) with
  | none => simp [Job.ask]
  | some reply =>
    obtain ⟨ending, ended, succeeds⟩ := turn_decide policy decision reply found pending
    simp only [Option.elim_some, ended, Turn.run]
    simp [Job.ask, Ending.run_code_iff, succeeds]

theorem runJob_lookUp_of_unlisted
    (unlisted : ¬Lists (answerAt client.timeout reactions 0) id.val) :
    let run := runJob policy client (.lookUp id decision) reactions
    run.requests = [client.encoder.envelope Operation.refresh.call] ∧ run.code ≠ some 0 := by
  rw [runJob_step]
  cases answered : answerAt client.timeout reactions 0 with
  | none => simp [Job.ask]
  | some reply =>
    rw [answered] at unlisted
    obtain ⟨failure, ended⟩ := turn_lookUp_of_unlisted policy decision unlisted
    simp only [Option.elim_some, ended, Turn.run]
    simp [Job.ask, Ending.run_code_iff, Ending.ofFailure]

end LookUp

/-! ### The arguments -/

/-- What a modification argument stands for; without one nothing is modified. -/
def modificationOf? : Option String → Option Json
  | none => some (.obj [])
  | some text => Json.parse? text

/-- How a run goes that decides on a request. The id and what else the call needs are none
if they cannot be read; `Grants` tells the results that mean success. -/
structure Decides (answers : Nat → Option Reply) (id : Option UInt64) (method : String)
    (further : Option (List Json)) (Grants : Json → Prop) (run : Run) : Prop where
  unread : id = none ∨ further = none → run.requests = [] ∧ run.code = some 1
  listed : ∀ n params, id = some n → further = some params → Lists (answers 0) n →
    run.requests = [⟨"2.0", "signer_requestsToConfirm", [], 1⟩,
      ⟨"2.0", method, .str ("0x" ++ Digits.hex n.toNat) :: params, 2⟩]
  unlisted : ∀ n params, id = some n → further = some params → ¬Lists (answers 0) n →
    run.requests = [⟨"2.0", "signer_requestsToConfirm", [], 1⟩]
  success : run.code = some 0 ↔ ∃ n params value, id = some n ∧ further = some params ∧
    Lists (answers 0) n ∧ answers 1 = some (.ok value) ∧ Grants value

section Served

variable {args : List String} {env : String → Option String} {server : Server}
  {invocation : Invocation} (served : Served args env server invocation)

include served

/-- A command decides if its job looks the request up where its arguments can be read. -/
theorem Served.decides {id : Option UInt64} {method : String} {further : Option (List Json)}
    {Grants : Json → Prop}
    (unread : id = none ∨ further = none → ∃ causes, invocation.command.job = .error causes)
    (read : ∀ n params, id = some n → further = some params → ∃ decision : Decision,
      invocation.command.job = .ok (.lookUp ⟨n⟩ decision) ∧
        decision.call ⟨n⟩ = ⟨method, .str ("0x" ++ Digits.hex n.toNat) :: params⟩ ∧
        ∀ reply, (∃ verdict, decision.granted? reply = some verdict) ↔
          ∃ value, reply = .ok value ∧ Grants value) :
    Decides (answerAt (invocation.allSettings env).requestTimeout server.reactions) id method
      further Grants (rehearse args env server) := by
  have failed : id = none ∨ further = none →
      (rehearse args env server).requests = [] ∧ (rehearse args env server).code = some 1 := by
    intro missing
    obtain ⟨causes, job⟩ := unread missing
    simp [served.rehearse_eq, job, Run.requests]
  refine ⟨failed, ?_, ?_, ?_⟩
  case refine_1 =>
    intro n params number others listed
    obtain ⟨decision, job, call, -⟩ := read n params number others
    rw [served.rehearse_eq, job]
    refine (runJob_lookUp_of_listed _ _ decision listed).1.trans ?_
    rw [call]
    rfl
  case refine_2 =>
    intro n params number others unlisted
    obtain ⟨decision, job, -⟩ := read n params number others
    rw [served.rehearse_eq, job]
    exact (runJob_lookUp_of_unlisted _ _ decision unlisted).1
  case refine_3 =>
    constructor
    · intro success
      cases number : id with
      | none => simp [(failed (.inl number)).2] at success
      | some n =>
        cases others : further with
        | none => simp [(failed (.inr others)).2] at success
        | some params =>
          obtain ⟨decision, job, -, grants⟩ := read n params number others
          rw [served.rehearse_eq, job] at success
          by_cases listed : Lists
              (answerAt (invocation.allSettings env).requestTimeout server.reactions 0) n
          · obtain ⟨reply, verdict, answered, granted⟩ :=
              (runJob_lookUp_of_listed _ _ decision listed).2.mp success
            obtain ⟨value, rfl, good⟩ := (grants reply).mp ⟨verdict, granted⟩
            exact ⟨n, params, value, rfl, rfl, listed, answered, good⟩
          · exact absurd success (runJob_lookUp_of_unlisted _ _ decision listed).2
    · rintro ⟨n, params, value, number, others, listed, answered, good⟩
      obtain ⟨decision, job, -, grants⟩ := read n params number others
      obtain ⟨verdict, granted⟩ := (grants (.ok value)).mpr ⟨value, rfl, good⟩
      rw [served.rehearse_eq, job]
      exact (runJob_lookUp_of_listed _ _ decision listed).2.mpr ⟨_, verdict, answered, granted⟩

theorem Served.decides_confirm {text password : String} {modification : Option String}
    (confirm : invocation.command = .confirm text password modification) :
    Decides (answerAt (invocation.allSettings env).requestTimeout server.reactions)
      (Quantity.ofText? text) "signer_confirmRequest"
      ((modificationOf? modification).map fun value => [value, .str password]) (fun _ => True)
      (rehearse args env server) := by
  apply served.decides
  · rw [confirm, Option.map_eq_none_iff]
    unfold Command.job
    dsimp only
    rintro (missing | unread)
    · obtain ⟨causes, failed⟩ := requestId_of_none missing
      exact ⟨causes, by rw [failed]⟩
    · cases modification with
      | none => cases unread
      | some json =>
        have parsed : Json.parse? json = none := unread
        cases id : requestId text <;> simp [parsed]
  · intro n params number others
    obtain ⟨value, changed, rfl⟩ := Option.map_eq_some_iff.mp others
    refine ⟨.confirm value password, ?_, rfl, ?_⟩
    · rw [confirm]
      unfold Command.job
      dsimp only
      rw [requestId_of_some number]
      cases modification with
      | none =>
        cases changed
        rfl
      | some json =>
        have parsed : Json.parse? json = some value := changed
        rw [Option.map_some, parsed]
    · intro reply
      cases reply <;> simp [Decision.granted?]

theorem Served.decides_reject {text : String} (reject : invocation.command = .reject text) :
    Decides (answerAt (invocation.allSettings env).requestTimeout server.reactions)
      (Quantity.ofText? text) "signer_rejectRequest" (some []) (· = .bool true)
      (rehearse args env server) := by
  apply served.decides
  · rintro (missing | missing)
    · obtain ⟨causes, failed⟩ := requestId_of_none missing
      exact ⟨causes, by rw [reject]; exact congrArg (Except.map (Job.lookUp · .reject)) failed⟩
    · cases missing
  · intro n params number others
    cases others
    refine ⟨.reject, ?_, rfl, ?_⟩
    · rw [reject]
      exact congrArg (Except.map (Job.lookUp · .reject)) (requestId_of_some number)
    · intro reply
      unfold Decision.granted?
      split <;> simp_all

end Served

def lister : Server :=
  ⟨fun _ => true,
    [.response 200 (Utf8.encode ("\x7b\"result\":[\x7b\"id\":\"0X07\",\"payload\":" ++
        "\x7b\"sendTransaction\":\x7b\x7d\x7d\x7d]\x7d")) true,
      .response 200 (Utf8.encode "\x7b\"result\":\"0x01\"\x7d") true]⟩

end Cli

end Countersign
