import Countersign.Proofs.Socket.Correlation

set_option autoImplicit false

/-!
# The table holds the calls that wait for an answer

What has become of a call can be read off the run: it has entered the table, an answer or
the end of the connection has been sent to it, it has returned or been dropped. As long as
ids are left, the table holds exactly the calls that have entered and to which nothing
else has happened. So no entry outlives its call, and no call loses its entry to another.
-/

namespace Countersign.Socket

open Std

def trace (s : Socket) (events : List Event) : List (Event × Report) :=
  events.zip (s.run events).1

def Report.starts (ticket : Nat) (id : UInt64) : Report → Bool
  | .started begun encoded => begun == ticket && encoded.id == id
  | _ => false

/-- The call of a ticket is over: it has returned, or it has been dropped. -/
def ends (ticket : Nat) : Event → Report → Bool
  | _, .ended (some returned) _ => returned == ticket
  | .drop dropped, .dropped => dropped == ticket
  | _, _ => false

/-- The call has entered the table, it is not over, and no reply has been sent to it. -/
def Outstanding (trace : List (Event × Report)) (ticket : Nat) (id : UInt64) : Prop :=
  ∃ before begun since, trace = before ++ begun :: since ∧ begun.2.starts ticket id = true ∧
    ∀ entry ∈ since, ends ticket entry.1 entry.2 = false ∧ entry.1.word? id = none

theorem reports_snoc (s : Socket) (events : List Event) (event : Event) :
    (s.run (events ++ [event])).1 = (s.run events).1 ++ [((s.after events).step event).1] := by
  induction events generalizing s with
  | nil => rfl
  | cons first rest ih => exact congrArg ((s.step first).1 :: ·) (ih (s.step first).2.2)

theorem length_reports (s : Socket) (events : List Event) :
    (s.run events).1.length = events.length := by
  induction events generalizing s with
  | nil => rfl
  | cons first rest ih => exact congrArg (· + 1) (ih (s.step first).2.2)

theorem trace_snoc (s : Socket) (events : List Event) (event : Event) :
    s.trace (events ++ [event]) =
      s.trace events ++ [(event, ((s.after events).step event).1)] := by
  rw [trace, reports_snoc, List.zip_append (length_reports s events).symm]
  rfl

theorem Outstanding.started {s : Socket} {events : List Event} {ticket : Nat} {id : UInt64}
    (outstanding : Outstanding (s.trace events) ticket id) :
    ∃ encoded, .started ticket encoded ∈ (s.run events).1 := by
  obtain ⟨before, ⟨event, report⟩, since, split, starts, -⟩ := outstanding
  have member : (event, report) ∈ s.trace events := by simp [split]
  have reported := (List.of_mem_zip member).2
  cases report with
  | started begun encoded =>
    simp only [Report.starts, Bool.and_eq_true, beq_iff_eq] at starts
    rw [starts.1] at reported
    exact ⟨encoded, reported⟩
  | _ => cases starts

theorem outstanding_snoc {trace : List (Event × Report)} {ticket : Nat} {id : UInt64}
    {event : Event} {report : Report} :
    Outstanding (trace ++ [(event, report)]) ticket id ↔
      report.starts ticket id = true ∨
        Outstanding trace ticket id ∧ ends ticket event report = false ∧
          event.word? id = none := by
  constructor
  · rintro ⟨before, begun, since, split, starts, quiet⟩
    rcases append_singleton_eq_append_cons_iff.mp split with
      ⟨rfl, rfl, rfl⟩ | ⟨rest, rfl, rfl⟩
    · exact .inl starts
    · right
      refine ⟨⟨before, begun, rest, rfl, starts, ?_⟩, ?_⟩
      · intro entry membership
        exact quiet entry (List.mem_append_left _ membership)
      · exact quiet (event, report) (List.mem_append_right _ (List.mem_singleton.mpr rfl))
  · rintro (starts | ⟨⟨before, begun, since, rfl, starts, quiet⟩, last⟩)
    · exact ⟨trace, (event, report), [], rfl, starts, by simp⟩
    · refine ⟨before, begun, since ++ [(event, report)], by simp, starts, ?_⟩
      intro entry membership
      rcases List.mem_append.mp membership with earlier | now
      · exact quiet entry earlier
      · rw [List.mem_singleton.mp now]
        exact last

/-! ### What one event does to the table -/

theorem ends_noted (ticket : Nat) (event : Event) : ends ticket event .noted = false := by
  cases event <;> rfl

theorem Event.word?_of_response {event : Event} {response : Rpc.Response} {meant : UInt64}
    (read : event.response? = some response) (named : response.id = some meant) (id : UInt64) :
    event.word? id = none ↔ meant ≠ id := by
  rw [Event.word?_eq_none_iff]
  constructor
  · rintro ⟨-, silent⟩ rfl
    exact silent response read named
  · intro different
    refine ⟨?_, ?_⟩
    · rintro failure rfl
      cases read
    · intro other reread
      cases read.symm.trans reread
      rw [named, ne_eq, Option.some.injEq]
      exact different

theorem Event.word?_of_unlisted {s : Socket} {event : Event} (frame : event.isFrame = true)
    (unlisted : ∀ response id, event.response? = some response → response.id = some id →
      id ∉ s.connection.table) {id : UInt64} (listed : id ∈ s.connection.table) :
    event.word? id = none := by
  refine Event.word?_eq_none_iff.mpr ⟨?_, ?_⟩
  · rintro failure rfl
    cases frame
  · intro response read meant
    exact unlisted response id read meant listed

/-- An entry that stays when the call of an id goes is the entry of another call. -/
theorem Sound.getElem?_erase {s : Socket} (sound : s.Sound) {ticket : Nat} {w : Waiting}
    (live : s.calls[ticket]? = some w) (id : UInt64) (other : Nat) :
    (s.connection.table.erase w.id)[id]? = some other ↔
      s.connection.table[id]? = some other ∧ ticket ≠ other := by
  simp only [ExtTreeMap.getElem?_erase, Std.compare_eq_iff_eq, Option.ite_none_left_eq_some]
  constructor
  · rintro ⟨different, entry⟩
    refine ⟨entry, ?_⟩
    rintro rfl
    obtain ⟨w', live', same, -⟩ := (sound.table _ _).mp entry
    cases live.symm.trans live'
    exact different same
  · rintro ⟨entry, different⟩
    refine ⟨?_, entry⟩
    rintro rfl
    obtain ⟨w', live', same, -⟩ := (sound.table _ _).mp entry
    exact different (sound.ticket_eq live live' same.symm)

theorem Move.table_iff {s next : Socket} {event : Event} {report : Report}
    (move : Move s event report next) (sound : s.Sound) (room : s.nextTicket < UInt64.size)
    (id : UInt64) (ticket : Nat) :
    next.connection.table[id]? = some ticket ↔
      report.starts ticket id = true ∨ s.connection.table[id]? = some ticket ∧
        ends ticket event report = false ∧ event.word? id = none := by
  cases move with
  | refused | waiting | pollUnknown | aborted | dropUnknown =>
    simp [Report.starts, ends, Event.word?, Event.response?, Event.frame?]
  | entered connected =>
    have free := sound.next_free room
    simp only [Socket.entered, ExtTreeMap.getElem?_insert, Std.compare_eq_iff_eq, Report.starts,
      Rpc.Encoder.encode, ends, Event.word?, Event.response?, Event.frame?, Option.bind_none,
      and_true, Bool.and_eq_true, beq_iff_eq]
    by_cases same : s.encoder.nextId = id
    · subst same
      simp [free]
    · simp [same]
  | ended live | dropped live =>
    refine (sound.getElem?_erase live id ticket).trans ?_
    simp [Report.starts, ends, Event.word?, Event.response?, Event.frame?]
  | @answered event response meant owner read named entry =>
    simp only [Socket.answered, ExtTreeMap.getElem?_erase, Std.compare_eq_iff_eq,
      Option.ite_none_left_eq_some, Report.starts, ends_noted, Event.word?_of_response read named]
    simp [and_comm]
  | ignored frame unlisted =>
    simp only [Report.starts, ends_noted, Bool.false_eq_true, false_or, true_and]
    refine (and_iff_left_of_imp ?_).symm
    intro entry
    exact Event.word?_of_unlisted frame unlisted (mem_iff_getElem?.mpr ⟨ticket, entry⟩)
  | shutDown =>
    simp [Socket.ended, Report.starts, Event.word?]
  | shutAgain closed =>
    simp [sound.closed closed, Report.starts]

theorem Move.live_of_ends {s next : Socket} {event : Event} {report : Report}
    (move : Move s event report next) {ticket : Nat} (finished : ends ticket event report = true) :
    ticket ∈ s.calls ∧ ticket ∉ next.calls := by
  cases move with
  | ended live | dropped live =>
    cases eq_of_beq finished
    exact ⟨mem_iff_getElem?.mpr ⟨_, live⟩, by simp [Socket.without]⟩
  | answered | ignored | shutDown | shutAgain => simp [ends_noted] at finished
  | _ => cases finished

theorem Move.nextTicket_mono {s next : Socket} {event : Event} {report : Report}
    (move : Move s event report next) : s.nextTicket ≤ next.nextTicket := by
  cases move with
  | entered => exact Nat.le_succ _
  | _ => exact Nat.le_refl _

theorem Move.eq_next_of_started {s next : Socket} {event : Event} {ticket : Nat}
    {encoded : Rpc.Encoded} (move : Move s event (.started ticket encoded) next) :
    ticket = s.nextTicket := by
  cases move
  rfl

/-- A ticket that has been used up is not used again. -/
theorem Move.not_mem_calls {s next : Socket} {event : Event} {report : Report}
    (move : Move s event report next) (sound : s.Sound) {ticket : Nat}
    (issued : ticket < s.nextTicket) (gone : ticket ∉ s.calls) : ticket ∉ next.calls := by
  intro back
  obtain ⟨w, live⟩ := mem_iff_getElem?.mp back
  rcases move.call_origin sound live with ⟨body, rfl, -⟩ | ⟨earlier, lived, -⟩
  · have := move.eq_next_of_started
    omega
  · exact gone (mem_iff_getElem?.mpr ⟨earlier, lived⟩)

/-- A call that ends takes no other call's entry off the table. -/
theorem Move.others_stay {s next : Socket} {event : Event} {report : Report}
    (move : Move s event report next) (sound : s.Sound) {ticket : Nat}
    (finished : ends ticket event report = true) (id : UInt64) {other : Nat}
    (different : ticket ≠ other) :
    next.connection.table[id]? = some other ↔ s.connection.table[id]? = some other := by
  cases move with
  | ended live | dropped live =>
    cases eq_of_beq finished
    exact (sound.getElem?_erase live id other).trans (and_iff_left different)
  | answered | ignored | shutDown | shutAgain => simp [ends_noted] at finished
  | _ => cases finished

/-! ### What a run tells of the table -/

theorem outstanding_iff (debug : Bool) (timeout : Option Duration) (events : List Event)
    (few : events.countP Event.isStart < UInt64.size) (id : UInt64) (ticket : Nat) :
    ((new debug timeout).after events).connection.table[id]? = some ticket ↔
      Outstanding ((new debug timeout).trace events) ticket id := by
  induction events using List.reverseRecOn with
  | nil => simp [after, run, new, Connection.new, trace, Outstanding]
  | append_singleton events event ih =>
    have fewer : events.countP Event.isStart < UInt64.size := by
      rw [List.countP_append] at few
      omega
    obtain ⟨sound, issued⟩ := sound_after debug timeout events fewer
    have room := Nat.lt_of_le_of_lt issued fewer
    have move := step_move sound room event
    rw [after_snoc, trace_snoc, outstanding_snoc, move.table_iff sound room, ih fewer]

/-- Whoever has ended had a ticket, and is not there any more. -/
theorem ended_of_trace (debug : Bool) (timeout : Option Duration) (events : List Event)
    (few : events.countP Event.isStart < UInt64.size) {ticket : Nat} {entry : Event × Report}
    (membership : entry ∈ (new debug timeout).trace events)
    (finished : ends ticket entry.1 entry.2 = true) :
    ticket < ((new debug timeout).after events).nextTicket ∧
      ticket ∉ ((new debug timeout).after events).calls := by
  induction events using List.reverseRecOn with
  | nil => cases membership
  | append_singleton events event ih =>
    have fewer : events.countP Event.isStart < UInt64.size := by
      rw [List.countP_append] at few
      omega
    obtain ⟨sound, issued⟩ := sound_after debug timeout events fewer
    have move := step_move sound (Nat.lt_of_le_of_lt issued fewer) event
    rw [trace_snoc] at membership
    rw [after_snoc]
    rcases List.mem_append.mp membership with earlier | now
    · obtain ⟨used, gone⟩ := ih fewer earlier
      exact ⟨Nat.lt_of_lt_of_le used move.nextTicket_mono, move.not_mem_calls sound used gone⟩
    · cases List.mem_singleton.mp now
      obtain ⟨there, gone⟩ := move.live_of_ends finished
      obtain ⟨w, live⟩ := mem_iff_getElem?.mp there
      exact ⟨Nat.lt_of_lt_of_le (sound.numbered ticket w live).1 move.nextTicket_mono, gone⟩

/-- As long as ids are left, the table holds exactly the calls that have entered, are not over
and have been sent no reply. Their number is the number of pending calls, which is zero
once all calls are over, and the end of a call leaves the entries of all others alone. -/
theorem table_holds_outstanding_calls (debug : Bool) (timeout : Option Duration)
    (events : List Event) (few : events.countP Event.isStart < UInt64.size) :
    let origin := new debug timeout
    let s := origin.after events
    (∀ (id : UInt64) (ticket : Nat), s.connection.table[id]? = some ticket ↔
      Outstanding (origin.trace events) ticket id) ∧
    (∃ waiting : List Nat, waiting.Nodup ∧ s.pendingCalls = waiting.length ∧
      ∀ ticket, ticket ∈ waiting ↔ ∃ id, Outstanding (origin.trace events) ticket id) ∧
    ((∀ ticket encoded, .started ticket encoded ∈ (origin.run events).1 →
      ∃ entry ∈ origin.trace events, ends ticket entry.1 entry.2 = true) → s.pendingCalls = 0) ∧
    ∀ event ticket, ends ticket event (s.step event).1 = true →
      ∀ (id : UInt64) (other : Nat), ticket ≠ other →
        ((s.step event).2.2.connection.table[id]? = some other ↔
          s.connection.table[id]? = some other) := by
  intro origin s
  obtain ⟨sound, issued⟩ := sound_after debug timeout events few
  have table := outstanding_iff debug timeout events few
  refine ⟨table, ⟨s.connection.table.values, ?_, ?_, ?_⟩, ?_, ?_⟩
  · apply nodup_values
    intro first second ticket entry entry'
    obtain ⟨w, live, rfl, -⟩ := (sound.table _ _).mp entry
    obtain ⟨w', live', rfl, -⟩ := (sound.table _ _).mp entry'
    cases live.symm.trans live'
    rfl
  · exact (length_values _).symm
  · intro ticket
    rw [mem_values_iff]
    exact exists_congr fun id => table id ticket
  · intro finished
    have nothing : s.connection.table = ∅ := by
      apply ExtTreeMap.ext_getElem?
      intro id
      rw [ExtTreeMap.getElem?_empty, Option.eq_none_iff_forall_ne_some]
      intro ticket entry
      obtain ⟨encoded, started⟩ := ((table id ticket).mp entry).started
      obtain ⟨last, membership, ended⟩ := finished ticket encoded started
      obtain ⟨w, live, -⟩ := (sound.table id ticket).mp entry
      apply (ended_of_trace debug timeout events few membership ended).2
      exact mem_iff_getElem?.mpr ⟨w, live⟩
    simp [pendingCalls, nothing]
  · intro event ticket finished id other different
    have move := step_move sound (Nat.lt_of_le_of_lt issued few) event
    exact move.others_stay sound finished id different

def forsaken : List Event :=
  [.start ⟨"eth_blockNumber", []⟩ ⟨some (.ofNanos 1)⟩ false, .start ⟨"net_version", []⟩ ⟨none⟩ true,
    .poll 0 true, .drop 1]

theorem forsaken_calls_leave_no_entry :
    forsaken.countP Event.isStart < UInt64.size ∧
      ((new false none).after forsaken).pendingCalls = 0 := by
  have few : forsaken.countP Event.isStart < UInt64.size := by decide
  refine ⟨few, (table_holds_outstanding_calls false none forsaken few).2.2.1 ?_⟩
  obtain ⟨first, second, limit, reports⟩ : ∃ first second limit,
      ((new false none).run forsaken).1 =
        [.started 0 first, .started 1 second, .ended (some 0) (.error (.timeout limit)),
          .dropped] := ⟨_, _, _, by with_unfolding_all rfl⟩
  rw [trace, reports]
  intro ticket encoded started
  simp only [List.mem_cons, Report.started.injEq, reduceCtorEq, List.not_mem_nil, or_false] at started
  rcases started with ⟨rfl, -⟩ | ⟨rfl, -⟩
  · exact ⟨(.poll 0 true, .ended (some 0) (.error (.timeout limit))), by simp [forsaken], rfl⟩
  · exact ⟨(.drop 1, .dropped), by simp [forsaken], rfl⟩

end Countersign.Socket
