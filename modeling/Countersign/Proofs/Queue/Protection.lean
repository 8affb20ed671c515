import Countersign.Proofs.Queue.Settlement
import Mathlib.Data.List.Induction

set_option autoImplicit false

/-!
# When a decision that waits keeps its request

The mark of a request that is in flight keeps the lists of the node from dropping it. All
decisions on the request share the mark, and the first to end takes it off. So a
decision that waits loses its request exactly if another one has ended without settling
it, no further one has begun, and the node's list has come without it; then a reply that
grants the decision finds nothing to settle.
-/

namespace Countersign.Desk

def Report.begins (id : RequestId) : Report → Bool
  | .called _ (.decide begun _) => begun == id
  | _ => false

/-- The report tells that a decision on the id is over, in whatever way. -/
def Report.ends (id : RequestId) : Report → Bool
  | .finished (.decide ended _) _ => ended == id
  | .cancelled (.decide ended _) => ended == id
  | _ => false

/-- A decision on the id is over, and none has begun since. -/
def Exposed (id : RequestId) (reports : List Report) : Prop :=
  ∃ before ended after, reports = before ++ ended :: after ∧
    ended.ends id = true ∧ ∀ report ∈ after, report.begins id = false

def listing? (desk : Desk) : Event → Option (List Request)
  | .reply ticket reply =>
    match desk.waiting.lookup ticket with
    | some .refresh => Request.listed? reply
    | _ => none
  | _ => none

def Lists (desk : Desk) (event : Event) (id : RequestId) : Prop :=
  ∃ reported, desk.listing? event = some reported ∧ ∃ request ∈ reported, request.id = id

def Omits (desk : Desk) (event : Event) (id : RequestId) : Prop :=
  ∃ reported, desk.listing? event = some reported ∧ ∀ request ∈ reported, request.id ≠ id

/-- A list without the id has come when no decision had settled it, one was over and none
had begun since; and the id has not been on a list after that. -/
def Lost (id : RequestId) (events : List Event) : Prop :=
  ∃ before event after, events = before ++ event :: after ∧
    (∀ report ∈ (empty.run before).1, report.settles id = false) ∧
    Exposed id (empty.run before).1 ∧ (empty.run before).2.Omits event id ∧
    ∀ between next rest, after = between ++ next :: rest →
      ¬ (empty.run (before ++ event :: between)).2.Lists next id

theorem exposed_snoc (id : RequestId) (reports : List Report) (report : Report) :
    Exposed id (reports ++ [report]) ↔
      report.ends id = true ∨ Exposed id reports ∧ report.begins id = false := by
  constructor
  · rintro ⟨before, ended, after, split, ends, quiet⟩
    rcases append_singleton_eq_append_cons_iff.mp split with
      ⟨rfl, rfl, rfl⟩ | ⟨rest, rfl, rfl⟩
    · exact .inl ends
    · right
      refine ⟨⟨before, ended, rest, rfl, ends, ?_⟩, ?_⟩
      · intro other membership
        exact quiet other (List.mem_append_left _ membership)
      · exact quiet report (List.mem_append_right _ (List.mem_singleton.mpr rfl))
  · rintro (ends | ⟨⟨before, ended, after, rfl, ends, quiet⟩, silent⟩)
    · exact ⟨reports, report, [], rfl, ends, by simp⟩
    · refine ⟨before, ended, after ++ [report], by simp, ends, ?_⟩
      intro other membership
      rcases List.mem_append.mp membership with earlier | last
      · exact quiet other earlier
      · rw [List.mem_singleton.mp last]
        exact silent

theorem lost_snoc (id : RequestId) (events : List Event) (event : Event) :
    Lost id (events ++ [event]) ↔
      Lost id events ∧ ¬ (empty.run events).2.Lists event id ∨
        (∀ report ∈ (empty.run events).1, report.settles id = false) ∧
          Exposed id (empty.run events).1 ∧ (empty.run events).2.Omits event id := by
  constructor
  · rintro ⟨before, dropping, after, split, unsettled, exposed, omits, unlisted⟩
    rcases append_singleton_eq_append_cons_iff.mp split with
      ⟨rfl, rfl, rfl⟩ | ⟨rest, rfl, rfl⟩
    · exact .inr ⟨unsettled, exposed, omits⟩
    · left
      refine ⟨⟨before, dropping, rest, rfl, unsettled, exposed, omits, ?_⟩, ?_⟩
      · intro between next last equal
        exact unlisted between next (last ++ [event]) (by simp [equal])
      · exact unlisted rest event [] rfl
  · rintro (⟨⟨before, dropping, after, rfl, unsettled, exposed, omits, unlisted⟩, absent⟩ |
      ⟨unsettled, exposed, omits⟩)
    · refine ⟨before, dropping, after ++ [event], by simp, unsettled, exposed, omits, ?_⟩
      intro between next last equal
      rcases append_singleton_eq_append_cons_iff.mp equal with
        ⟨rfl, rfl, rfl⟩ | ⟨rest, rfl, rfl⟩
      · exact absent
      · exact unlisted between next rest rfl
    · exact ⟨events, event, [], rfl, unsettled, exposed, omits, by simp⟩

/-! ### What one event does to the mark and to what is known -/

theorem Move.inFlight_of_begins {desk next : Desk} {event : Event} {report : Report}
    (move : Move desk event report next) {id : RequestId} (begins : report.begins id = true) :
    id ∈ next.queue.inFlight := by
  cases move with
  | decisionCalled =>
    cases eq_of_beq begins
    exact Std.ExtTreeSet.mem_insert_self
  | _ => cases begins

theorem Move.not_inFlight_of_ends {desk next : Desk} {event : Event} {report : Report}
    (move : Move desk event report next) {id : RequestId} (ends : report.ends id = true) :
    id ∉ next.queue.inFlight := by
  -- every end of a decision takes the mark of its own id off
  have unmarked : ∀ queue : Queue, id ∉ (queue.unmark id).inFlight := by
    intro queue inFlight
    exact (Queue.mem_unmark_inFlight.mp inFlight).1 rfl
  cases move with
  | settled | late | attempted | denied | decisionCancelled =>
    cases eq_of_beq ends
    exact unmarked _
  | _ => cases ends

theorem Move.mem_inFlight_iff {desk next : Desk} {event : Event} {report : Report}
    (move : Move desk event report next) {id : RequestId} (begins : report.begins id = false)
    (ends : report.ends id = false) :
    id ∈ next.queue.inFlight ↔ id ∈ desk.queue.inFlight := by
  have unmarked : ∀ (queue : Queue) (other : RequestId), (other == id) = false →
      (id ∈ (queue.unmark other).inFlight ↔ id ∈ queue.inFlight) := by
    intro queue other different
    rw [Queue.mem_unmark_inFlight]
    exact and_iff_right (beq_eq_false_iff_ne.mp different)
  cases move with
  | settled | late | attempted | denied | decisionCancelled => exact unmarked _ _ ends
  | decisionCalled =>
    have different := beq_eq_false_iff_ne.mp begins
    rw [Std.ExtTreeSet.mem_insert, Std.compare_eq_iff_eq]
    exact or_iff_right different
  | listed => rw [Queue.receive_inFlight]
  | _ => exact Iff.rfl

theorem Move.mem_finished_iff {desk next : Desk} {event : Event} {report : Report}
    (move : Move desk event report next) {id : RequestId} :
    id ∈ next.queue.finished ↔ id ∈ desk.queue.finished ∨ report.settles id = true := by
  cases move with
  | settled =>
    refine Queue.mem_settled_finished.trans ?_
    rw [or_comm]
    exact or_congr Iff.rfl beq_iff_eq.symm
  | listed =>
    rw [Queue.receive_finished]
    simp [Report.settles]
  | _ => simp [Report.settles, Queue.unmark, Queue.attempted]

/-- Only a list makes the queue hear of a request or forget it. -/
theorem Move.knows_of_no_listing {desk next : Desk} {event : Event} {report : Report}
    (move : Move desk event report next) (none : desk.listing? event = none) (id : RequestId) :
    next.queue.Knows id ↔ desk.queue.Knows id := by
  cases move with
  | settled waits granted found => exact Queue.knows_settled found _ id
  | listed waits read => simp [listing?, waits, read] at none
  | _ => exact Iff.rfl

theorem Move.knows_of_listing {desk next : Desk} {event : Event} {report : Report}
    (move : Move desk event report next) {reported : List Request}
    (listing : desk.listing? event = some reported) (id : RequestId) :
    next.queue.Knows id ↔ (∃ request ∈ reported, request.id = id) ∨
      id ∈ desk.queue.finished ∨ id ∈ desk.queue.pending ∧ id ∈ desk.queue.inFlight := by
  cases move with
  | listed waits read =>
    simp only [listing?, waits, read, Option.some.injEq] at listing
    subst listing
    rw [Queue.Knows, Queue.mem_receive_iff, Queue.receive_finished, ← Queue.isSome_reportedAs]
    by_cases settled : id ∈ desk.queue.finished
    · simp [settled]
    · grind
  | replyUnknown unknown => simp only [listing?, unknown, reduceCtorEq] at listing
  | _ => simp_all [listing?]

theorem Move.waiting_origin {desk next : Desk} {event : Event} {report : Report}
    (move : Move desk event report next) {ticket : Nat} {op : Operation}
    (waits : (ticket, op) ∈ next.waiting) :
    (ticket, op) ∈ desk.waiting ∨ report = .called ticket op := by
  cases move with
  | refreshCalled | decisionCalled =>
    rcases List.mem_append.mp waits with old | new
    · exact .inl old
    · cases List.mem_singleton.mp new
      exact .inr rfl
  | refused | replyUnknown | cancelUnknown | logTaken => exact .inl waits
  | _ => exact .inl (mem_others.mp waits).1

/-! ### What a run tells of the mark and of what is known -/

/-- An id is in flight if a decision on it has begun and none has ended since the last
one began. -/
theorem mem_inFlight_run_iff (id : RequestId) (events : List Event) :
    id ∈ (empty.run events).2.queue.inFlight ↔
      (∃ report ∈ (empty.run events).1, report.begins id = true) ∧
        ¬ Exposed id (empty.run events).1 := by
  induction events using List.reverseRecOn with
  | nil => simp [Desk.run, empty, Queue.empty]
  | append_singleton events event ih =>
    have move := step_move (sound_empty.run events).wellFormed event
    rw [run_snoc, exposed_snoc]
    generalize ((empty.run events).2.step event).1 = report at move ⊢
    cases begins : report.begins id with
    | true =>
      have notEnds : report.ends id = false := by
        cases report <;> first | rfl | cases begins
      simp [move.inFlight_of_begins begins, begins, notEnds]
    | false =>
      cases ends : report.ends id with
      | true => simp [move.not_inFlight_of_ends ends]
      | false => simp [move.mem_inFlight_iff begins ends, ih, begins, or_and_right, exists_or]

theorem mem_finished_run_iff (id : RequestId) (events : List Event) :
    id ∈ (empty.run events).2.queue.finished ↔
      ∃ report ∈ (empty.run events).1, report.settles id = true := by
  induction events using List.reverseRecOn with
  | nil => simp [Desk.run, empty, Queue.empty]
  | append_singleton events event ih =>
    have move := step_move (sound_empty.run events).wellFormed event
    rw [run_snoc, move.mem_finished_iff, ih]
    simp [or_and_right, exists_or]

theorem called_of_waiting {ticket : Nat} {op : Operation} {events : List Event}
    (waits : (ticket, op) ∈ (empty.run events).2.waiting) :
    .called ticket op ∈ (empty.run events).1 := by
  induction events using List.reverseRecOn with
  | nil => cases waits
  | append_singleton events event ih =>
    have move := step_move (sound_empty.run events).wellFormed event
    rw [run_snoc] at waits ⊢
    rcases move.waiting_origin waits with before | called
    · exact List.mem_append_left _ (ih before)
    · rw [called]
      exact List.mem_append_right _ (List.mem_singleton.mpr rfl)

theorem not_knows_of_lost {id : RequestId} {events : List Event} (lost : Lost id events) :
    ¬ (empty.run events).2.queue.Knows id := by
  induction events using List.reverseRecOn with
  | nil =>
    obtain ⟨before, event, after, split, -⟩ := lost
    cases before <;> cases split
  | append_singleton events event ih =>
    have move := step_move (sound_empty.run events).wellFormed event
    rw [run_snoc]
    rcases (lost_snoc id events event).mp lost with ⟨earlier, unlisted⟩ |
      ⟨unsettled, exposed, reported, listing, omitted⟩
    · have unknown := ih earlier
      cases listing : (empty.run events).2.listing? event with
      | none => rwa [move.knows_of_no_listing listing]
      | some reported =>
        rw [move.knows_of_listing listing]
        rintro (named | finished | ⟨pending, -⟩)
        · exact unlisted ⟨reported, listing, named⟩
        · exact unknown (.inr finished)
        · exact unknown (.inl pending)
    · rw [move.knows_of_listing listing]
      rintro (⟨request, membership, same⟩ | finished | ⟨-, inFlight⟩)
      · exact omitted request membership same
      · obtain ⟨report, membership, settles⟩ := (mem_finished_run_iff id events).mp finished
        rw [unsettled report membership] at settles
        cases settles
      · exact ((mem_inFlight_run_iff id events).mp inFlight).2 exposed

theorem lost_of_waiting {ticket : Nat} {id : RequestId} {decision : Decision}
    {events : List Event}
    (waits : (ticket, .decide id decision) ∈ (empty.run events).2.waiting)
    (unknown : ¬ (empty.run events).2.queue.Knows id) : Lost id events := by
  induction events using List.reverseRecOn with
  | nil => cases waits
  | append_singleton events event ih =>
    have move := step_move (sound_empty.run events).wellFormed event
    rw [run_snoc] at waits unknown
    rw [lost_snoc]
    rcases move.waiting_origin waits with before | called
    · cases listing : (empty.run events).2.listing? event with
      | none =>
        rw [move.knows_of_no_listing listing] at unknown
        refine .inl ⟨ih before unknown, ?_⟩
        rintro ⟨reported, listed, -⟩
        rw [listing] at listed
        cases listed
      | some reported =>
        rw [move.knows_of_listing listing, not_or, not_or] at unknown
        obtain ⟨omitted, unsettled, unprotected⟩ := unknown
        by_cases known : (empty.run events).2.queue.Knows id
        · -- the list drops the request now, so its mark is gone although it once began
          right
          have pending := known.resolve_right unsettled
          have unmarked : id ∉ (empty.run events).2.queue.inFlight :=
            fun inFlight => unprotected ⟨pending, inFlight⟩
          have begun : ∃ report ∈ (empty.run events).1, report.begins id = true :=
            ⟨_, called_of_waiting before, beq_self_eq_true id⟩
          refine ⟨?_, ?_, reported, listing, ?_⟩
          · intro report membership
            by_contra settles
            rw [Bool.not_eq_false] at settles
            exact unsettled ((mem_finished_run_iff id events).mpr ⟨report, membership, settles⟩)
          · by_contra covered
            exact unmarked ((mem_inFlight_run_iff id events).mpr ⟨begun, covered⟩)
          · intro request membership same
            exact omitted ⟨request, membership, same⟩
        · left
          refine ⟨ih before known, ?_⟩
          rintro ⟨other, listed, named⟩
          rw [listing] at listed
          cases listed
          exact omitted named
    · -- a decision that has just begun has found its request pending
      have begins : Report.begins id ((empty.run events).2.step event).1 = true := by
        rw [called]
        exact beq_self_eq_true id
      have inFlight := move.inFlight_of_begins begins
      exact absurd (((sound_empty.run events).step event).flightKnown id inFlight) unknown

/-- A decision fails because there is no such request exactly if the node grants it and
the queue does not know its request. -/
theorem Sound.notFound_iff {desk : Desk} (sound : desk.Sound) {ticket : Nat} {id : RequestId}
    {decision : Decision} (waits : desk.waiting.lookup ticket = some (.decide id decision))
    (reply : Reply) (missing : RequestId) :
    (desk.step (.reply ticket reply)).1 =
        .finished (.decide id decision) (.error (.notFound missing)) ↔
      missing = id ∧ (decision.granted? reply).isSome = true ∧ ¬ desk.queue.Knows id := by
  have move := step_move sound.wellFormed (.reply ticket reply)
  generalize (desk.step (.reply ticket reply)).1 = report at move ⊢
  generalize (desk.step (.reply ticket reply)).2 = next at move
  cases move with
  | replyUnknown unknown =>
    rw [unknown] at waits
    cases waits
  | listed refreshes | unlisted refreshes =>
    rw [refreshes] at waits
    cases waits
  | settled same granted found =>
    rw [same] at waits
    cases waits
    simp [Queue.Knows, Queue.mem_pending_iff.mpr ⟨_, found⟩]
  | late same granted absent =>
    rw [same] at waits
    cases waits
    by_cases finished : id ∈ desk.queue.finished
    · obtain ⟨request, found⟩ := Queue.mem_finished_iff.mp finished
      simp [Queue.Knows, finished, Queue.refusal_of_finished found]
    · simp [Queue.Knows, finished, absent, granted, Queue.refusal_of_unknown finished, eq_comm]
  | attempted same confirms pending =>
    rw [same] at waits
    cases waits
    simp [Queue.Knows, pending]
  | denied same refused kind =>
    rw [same] at waits
    cases waits
    simp only [refused, Option.isSome_none, Bool.false_eq_true, false_and, and_false, iff_false]
    intro equal
    cases equal
    cases kind

/-- A decision that waits finds its request pending or settled unless the run has lost it,
and it fails because there is no such request exactly if the run has lost it and the
node grants the decision. -/
theorem waiting_known_iff_not_lost {events : List Event} {ticket : Nat} {id : RequestId}
    {decision : Decision}
    (waits : (ticket, .decide id decision) ∈ (empty.run events).2.waiting) :
    ((empty.run events).2.queue.Knows id ↔ ¬ Lost id events) ∧
      ∀ reply missing,
        ((empty.run events).2.step (.reply ticket reply)).1 =
            .finished (.decide id decision) (.error (.notFound missing)) ↔
          missing = id ∧ (decision.granted? reply).isSome = true ∧ Lost id events := by
  have known : (empty.run events).2.queue.Knows id ↔ ¬ Lost id events := by
    constructor
    · intro known lost
      exact not_knows_of_lost lost known
    · intro kept
      by_contra unknown
      exact kept (lost_of_waiting waits unknown)
  refine ⟨known, ?_⟩
  intro reply missing
  have sound := sound_empty.run events
  rw [sound.notFound_iff (sound.lookup_eq waits), known, not_not]

/-- The rejection of a contested request is given up, and then the node's list comes
without the request. -/
def abandoned : List Event :=
  contested ++ [.cancel 2, .start .refresh, .reply 3 (.ok (.arr []))]

theorem contested_waiting :
    (1, .decide ⟨7⟩ (.confirm .null "")) ∈ (empty.run contested).2.waiting := by
  have waiting : (empty.run contested).2.waiting =
      [(1, .decide ⟨7⟩ (.confirm .null "")), (2, .decide ⟨7⟩ .reject)] := by
    with_unfolding_all rfl
  simp [waiting]

theorem abandoned_waiting :
    (1, .decide ⟨7⟩ (.confirm .null "")) ∈ (empty.run abandoned).2.waiting := by
  have waiting : (empty.run abandoned).2.waiting = [(1, .decide ⟨7⟩ (.confirm .null ""))] := by
    with_unfolding_all rfl
  simp [waiting]

/-- The confirmation still waits, its request is gone, and the node's success cannot be
recorded. -/
theorem abandoned_confirmation_not_found :
    (1, .decide ⟨7⟩ (.confirm .null "")) ∈ (empty.run abandoned).2.waiting ∧
      ¬ (empty.run abandoned).2.queue.Knows ⟨7⟩ ∧
      ((empty.run abandoned).2.step (.reply 1 (.ok .null))).1 =
        .finished (.decide ⟨7⟩ (.confirm .null "")) (.error (.notFound ⟨7⟩)) := by
  refine ⟨abandoned_waiting, ?_, by with_unfolding_all rfl⟩
  unfold Queue.Knows
  decide +kernel

theorem abandoned_lost_contested_kept : Lost ⟨7⟩ abandoned ∧ ¬ Lost ⟨7⟩ contested := by
  have known : (empty.run contested).2.queue.Knows ⟨7⟩ := by
    unfold Queue.Knows
    decide +kernel
  have unknown : ¬ (empty.run abandoned).2.queue.Knows ⟨7⟩ := by
    unfold Queue.Knows
    decide +kernel
  refine ⟨?_, (waiting_known_iff_not_lost contested_waiting).1.mp known⟩
  by_contra kept
  exact unknown ((waiting_known_iff_not_lost abandoned_waiting).1.mpr kept)

end Countersign.Desk
