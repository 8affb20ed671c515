import Countersign.Proofs.Queue.Settlement

set_option autoImplicit false

/-!
# A verdict and a list of the node may come in either order

While a decision waits, its request is in flight, and a list of the node leaves it as it
is, whatever the list has under its id. Once the verdict is on record, the request is
settled and no list brings it back. So the queue ends up the same whether the list comes
before the verdict, between the verdict and the end of the mark, or after both.
-/

namespace Countersign

attribute [ext] Queue

namespace Queue

theorem receive_settled (q : Queue) (reported : List Request) (id : RequestId)
    (request : Request) (verdict : Verdict) :
    (q.receive reported).settled id request verdict =
      (q.settled id request verdict).receive reported := by
  apply Queue.ext
  · apply Std.ExtTreeMap.ext_getElem?
    intro other
    rw [getElem?_settled_pending, getElem?_receive, getElem?_receive, getElem?_settled_pending]
    by_cases same : id = other
    · simp [same, mem_settled_finished]
    · simp only [mem_settled_finished, same, false_or]
      rfl
  · simp [settled]
  · simp [settled]
  · simp [settled]

/-- The mark of a request matters to a list only while the request is pending. -/
theorem receive_unmark {q : Queue} {id : RequestId} (absent : id ∉ q.pending)
    (reported : List Request) :
    (q.receive reported).unmark id = (q.unmark id).receive reported := by
  apply Queue.ext
  · apply Std.ExtTreeMap.ext_getElem?
    intro other
    change (q.receive reported).pending[other]? = _
    rw [getElem?_receive, getElem?_receive]
    simp only [mem_unmark_inFlight]
    by_cases same : id = other
    · subst same
      have nothing : (q.unmark id).pending[id]? = none := Std.ExtTreeMap.getElem?_eq_none absent
      rw [nothing, Std.ExtTreeMap.getElem?_eq_none absent, ite_self, ite_self]
      rfl
    · simp only [ne_eq, same, not_false_eq_true, true_and]
      rfl
  · simp [unmark]
  · simp [unmark]
  · simp [unmark]

theorem getElem?_receive_of_inFlight {q : Queue} {id : RequestId} {request : Request}
    (found : q.pending[id]? = some request) (inFlight : id ∈ q.inFlight)
    (reported : List Request) : (q.receive reported).pending[id]? = some request := by
  rw [getElem?_receive, if_pos (.inr inFlight), found]
  rfl

theorem conclude_of_granted {q : Queue} {id : RequestId} {request : Request}
    (found : q.pending[id]? = some request) (pending : request.status = .pending)
    {decision : Decision} {reply : Reply} {verdict : Verdict}
    (granted : decision.granted? reply = some verdict) :
    q.conclude reply (.decide id decision) =
      (.ok (.decided verdict), q.settled id request verdict) := by
  simp only [conclude, decided_of_granted q id granted, settle, act_verdict found pending]
  rfl

theorem finish_of_granted {q : Queue} {id : RequestId} {request : Request}
    (found : q.pending[id]? = some request) (pending : request.status = .pending)
    {decision : Decision} {reply : Reply} {verdict : Verdict}
    (granted : decision.granted? reply = some verdict) :
    q.finish (.decide id decision) reply =
      (.ok (.decided verdict), (q.settled id request verdict).unmark id) := by
  rw [finish, conclude_of_granted found pending granted]
  rfl

theorem not_mem_settled_pending (q : Queue) (id : RequestId) (request : Request)
    (verdict : Verdict) : id ∉ (q.settled id request verdict).pending := by
  intro still
  exact (mem_settled_pending.mp still).1 rfl

theorem finish_receive {q : Queue} {id : RequestId} {request : Request}
    (found : q.pending[id]? = some request) (pending : request.status = .pending)
    (inFlight : id ∈ q.inFlight) {decision : Decision} {reply : Reply} {verdict : Verdict}
    (granted : decision.granted? reply = some verdict) (reported : List Request) :
    (q.receive reported).finish (.decide id decision) reply =
      (.ok (.decided verdict), (q.finish (.decide id decision) reply).2.receive reported) := by
  have kept := getElem?_receive_of_inFlight found inFlight reported
  have absent := q.not_mem_settled_pending id request verdict
  rw [finish_of_granted kept pending granted, finish_of_granted found pending granted,
    receive_settled, receive_unmark absent]

theorem conclude_receive {q : Queue} {id : RequestId} {request : Request}
    (found : q.pending[id]? = some request) (pending : request.status = .pending)
    {decision : Decision} {reply : Reply} {verdict : Verdict}
    (granted : decision.granted? reply = some verdict) (reported : List Request) :
    ((q.conclude reply (.decide id decision)).2.receive reported).unmark id =
      (q.finish (.decide id decision) reply).2.receive reported := by
  have absent := q.not_mem_settled_pending id request verdict
  rw [conclude_of_granted found pending granted, finish_of_granted found pending granted,
    receive_unmark absent]

end Queue

namespace Desk

theorem step_of_reply {desk : Desk} {ticket : Nat} {op : Operation}
    (waits : desk.waiting.lookup ticket = some op) (reply : Reply) :
    (desk.step (.reply ticket reply)).2 =
      ⟨(desk.queue.finish op reply).2, desk.others ticket, desk.nextTicket⟩ := by
  simp only [step, waits, finish]

theorem step_of_listed {desk : Desk} {ticket : Nat} {reply : Reply} {reported : List Request}
    (waits : desk.waiting.lookup ticket = some .refresh)
    (read : Request.listed? reply = some reported) :
    (desk.step (.reply ticket reply)).2 =
      ⟨desk.queue.receive reported, desk.others ticket, desk.nextTicket⟩ := by
  have received : (desk.queue.finish .refresh reply).2 = desk.queue.receive reported := by
    simp only [Queue.finish, Queue.conclude, Queue.cancel,
      Queue.listed_of_listed? desk.queue read]
  rw [step_of_reply waits, received]

/-- If the queue does not tell two replies apart by their order, neither does the desk. -/
theorem run_replies_comm {desk : Desk} {listing deciding : Nat} {op : Operation}
    {list reply : Reply} {reported : List Request}
    (refreshes : desk.waiting.lookup listing = some .refresh)
    (decides : desk.waiting.lookup deciding = some op) (different : listing ≠ deciding)
    (read : Request.listed? list = some reported)
    (same : ((desk.queue.receive reported).finish op reply).2 =
      (desk.queue.finish op reply).2.receive reported) :
    (desk.run [.reply listing list, .reply deciding reply]).2 =
      (desk.run [.reply deciding reply, .reply listing list]).2 := by
  have decidesLater : (desk.others listing).lookup deciding = some op := by
    rw [others, lookup_filter_ne different.symm, decides]
  have refreshesLater : (desk.others deciding).lookup listing = some .refresh := by
    rw [others, lookup_filter_ne different, refreshes]
  simp only [run]
  rw [step_of_listed refreshes read, step_of_reply decides, step_of_reply decidesLater,
    step_of_listed refreshesLater read, same]
  simp only [others, List.filter_filter, Bool.and_comm]

/-- While a request is pending and in flight, a verdict on it and a list of the node lead to
the same queue in either order, and also if the list comes when the verdict is on record
and the mark is still there. -/
theorem verdict_and_list_commute {events : List Event} {id : RequestId} {decision : Decision}
    {reply : Reply} {verdict : Verdict}
    (pending : id ∈ (empty.run events).2.queue.pending)
    (inFlight : id ∈ (empty.run events).2.queue.inFlight)
    (granted : decision.granted? reply = some verdict) (reported : List Request) :
    let desk := (empty.run events).2
    let op := Operation.decide id decision
    let settled := (desk.queue.finish op reply).2
    (desk.queue.finish op reply).1 = .ok (.decided verdict) ∧
      (desk.queue.receive reported).finish op reply =
        (.ok (.decided verdict), settled.receive reported) ∧
      ((desk.queue.conclude reply op).2.receive reported).cancel op =
        settled.receive reported ∧
      ∀ listing deciding list, desk.waiting.lookup listing = some .refresh →
        desk.waiting.lookup deciding = some op → Request.listed? list = some reported →
          (desk.run [.reply listing list, .reply deciding reply]).2 =
            (desk.run [.reply deciding reply, .reply listing list]).2 := by
  intro desk op settled
  have sound : desk.Sound := sound_empty.run events
  obtain ⟨request, found⟩ := Queue.mem_pending_iff.mp pending
  have unsettled := sound.wellFormed.pendingStatus id request found
  have same := Queue.finish_receive found unsettled inFlight granted reported
  refine ⟨congrArg Prod.fst (Queue.finish_of_granted found unsettled granted), same,
    Queue.conclude_receive found unsettled granted reported, ?_⟩
  intro listing deciding list refreshes decides read
  have different : listing ≠ deciding := by
    rintro rfl
    have clash := refreshes.symm.trans decides
    simp [op] at clash
  exact run_replies_comm refreshes decides different read (congrArg Prod.snd same)

def relisted : List Event := contested ++ [.start .refresh]

/-- The node still lists the contested request, twice and with another payload, and a new
one before it. -/
def relisting : Reply :=
  .ok (.arr [.obj [("id", .ofUInt64 9), ("payload", .null)],
    .obj [("id", .ofUInt64 7), ("payload", .bool true)],
    .obj [("id", .ofUInt64 7), ("payload", .null)]])

theorem relisted_rejection_commutes :
    (⟨7⟩ : RequestId) ∈ (empty.run relisted).2.queue.pending ∧
      (⟨7⟩ : RequestId) ∈ (empty.run relisted).2.queue.inFlight ∧
      ((empty.run relisted).2.run [.reply 3 relisting, .reply 2 (.ok (.bool true))]).2 =
        ((empty.run relisted).2.run [.reply 2 (.ok (.bool true)), .reply 3 relisting]).2 := by
  have pending : (⟨7⟩ : RequestId) ∈ (empty.run relisted).2.queue.pending := by decide +kernel
  have inFlight : (⟨7⟩ : RequestId) ∈ (empty.run relisted).2.queue.inFlight := by decide +kernel
  have waiting : (empty.run relisted).2.waiting =
      [(1, .decide ⟨7⟩ (.confirm .null "")), (2, .decide ⟨7⟩ .reject), (3, .refresh)] := by
    with_unfolding_all rfl
  have read : Request.listed? relisting =
      some [⟨⟨9⟩, .null, .other .null, .pending⟩, ⟨⟨7⟩, .null, .other (.bool true), .pending⟩,
        ⟨⟨7⟩, .null, .other .null, .pending⟩] := by with_unfolding_all rfl
  have granted : Decision.reject.granted? (.ok (.bool true)) = some .rejected := rfl
  refine ⟨pending, inFlight, ?_⟩
  refine (verdict_and_list_commute pending inFlight granted _).2.2.2 3 2 relisting ?_ ?_ read
  · rw [waiting]
    rfl
  · rw [waiting]
    rfl

end Desk

end Countersign
