import Countersign.Proofs.Socket.Moves

set_option autoImplicit false

/-!
# Every answer reaches its own call

A call that has not ended holds the first thing that was said to it since it started: an
answer with its id, or the end of the connection. So what a call brings back from the
node is the first answer with its id, a frame settles at most the one call it is meant
for, and a frame for which nobody waits changes nothing.
-/

namespace Countersign.Socket

/-- The node has said this, and not the connection or the caller. -/
def fromNode : Reply → Bool
  | .ok _ | .error (.rpc _) => true
  | _ => false

def Event.word? (id : UInt64) : Event → Option Reply
  | .shutDown _ => some (.error .connectionClosed)
  | event => event.response?.bind fun response =>
    if response.id = some id then some response.reply else none

/-- The call started under the ticket with the id, and it has been there all the time
since. -/
def Course (origin : Socket) (events : List Event) (ticket : Nat) (id : UInt64)
    (since : List Event) : Prop :=
  ∃ before begun body, events = before ++ begun :: since ∧
    ((origin.after before).step begun).1 = .started ticket ⟨id, body⟩ ∧
    ∀ earlier later, since = earlier ++ later →
      ticket ∈ (origin.after (before ++ begun :: earlier)).calls

/-- The first answer with the id has come before the connection ended, and this is what
it says. -/
def FirstAnswer (id : UInt64) (since : List Event) (reply : Reply) : Prop :=
  ∃ earlier frame later response, since = earlier ++ frame :: later ∧
    frame.response? = some response ∧ response.id = some id ∧ response.reply = reply ∧
    (∀ failure, .shutDown failure ∉ earlier) ∧
    ∀ event ∈ earlier, ∀ other, event.response? = some other → other.id ≠ some id

theorem fromNode_reply (response : Rpc.Response) : fromNode response.reply = true := by
  unfold Rpc.Response.reply
  split <;> rfl

theorem Event.word?_eq_none_iff {id : UInt64} {event : Event} :
    event.word? id = none ↔ (∀ failure, event ≠ .shutDown failure) ∧
      ∀ response, event.response? = some response → response.id ≠ some id := by
  cases event <;> simp [word?, Option.bind_eq_none_iff]

theorem Event.word?_eq_some_iff {id : UInt64} {event : Event} {reply : Reply}
    (node : fromNode reply = true) :
    event.word? id = some reply ↔ ∃ response, event.response? = some response ∧
      response.id = some id ∧ response.reply = reply := by
  cases event with
  | shutDown failure =>
    simp only [word?, response?, frame?, Option.some.injEq, Option.bind_none]
    constructor
    · rintro rfl
      cases node
    · rintro ⟨response, none, -⟩
      cases none
  | _ => simp [word?, Option.bind_eq_some_iff, Option.ite_none_right_eq_some]

theorem findSome?_word?_iff {id : UInt64} {since : List Event} {reply : Reply}
    (node : fromNode reply = true) :
    since.findSome? (Event.word? id) = some reply ↔ FirstAnswer id since reply := by
  rw [List.findSome?_eq_some_iff]
  constructor
  · rintro ⟨earlier, frame, later, split, said, silent⟩
    obtain ⟨response, read, named, replied⟩ := (Event.word?_eq_some_iff node).mp said
    refine ⟨earlier, frame, later, response, split, read, named, replied, ?_, ?_⟩
    · intro failure membership
      cases silent _ membership
    · intro event membership
      exact (Event.word?_eq_none_iff.mp (silent event membership)).2
  · rintro ⟨earlier, frame, later, response, split, read, named, replied, unended, silent⟩
    refine ⟨earlier, frame, later, split, ?_, ?_⟩
    · exact (Event.word?_eq_some_iff node).mpr ⟨response, read, named, replied⟩
    · intro event membership
      refine Event.word?_eq_none_iff.mpr ⟨?_, silent event membership⟩
      rintro failure rfl
      exact unended failure membership

/-! ### The first word stays -/

/-- A call either has just started, or it was there before and has kept what was said to
it first. -/
theorem Move.call_origin {s next : Socket} {event : Event} {report : Report}
    (move : Move s event report next) (sound : s.Sound) {ticket : Nat} {w : Waiting}
    (live : next.calls[ticket]? = some w) :
    (∃ body, report = .started ticket ⟨w.id, body⟩ ∧ w.answer = none) ∨
      ∃ earlier, s.calls[ticket]? = some earlier ∧ w.id = earlier.id ∧
        w.answer = earlier.answer.or (event.word? earlier.id) := by
  cases move with
  | refused | waiting | pollUnknown | dropUnknown =>
    exact .inr ⟨w, live, rfl, Option.or_none.symm⟩
  | @entered call options abortable connected =>
    simp only [Socket.entered, Std.ExtTreeMap.getElem?_insert, Std.compare_eq_iff_eq] at live
    split at live
    · next same =>
      cases live
      rw [← same]
      exact .inl ⟨_, rfl, rfl⟩
    · exact .inr ⟨w, live, rfl, Option.or_none.symm⟩
  | ended | dropped =>
    simp only [Socket.without, Std.ExtTreeMap.getElem?_erase, Option.ite_none_left_eq_some] at live
    exact .inr ⟨w, live.2, rfl, Option.or_none.symm⟩
  | aborted =>
    rw [getElem?_modify_calls] at live
    split at live
    · obtain ⟨earlier, lived, rfl⟩ := Option.map_eq_some_iff.mp live
      exact .inr ⟨earlier, lived, rfl, Option.or_none.symm⟩
    · exact .inr ⟨w, live, rfl, Option.or_none.symm⟩
  | @answered event response id owner read named entry =>
    obtain ⟨earlier, lived, rfl, unanswered⟩ := (sound.table id owner).mp entry
    simp only [Socket.answered, getElem?_modify_calls] at live
    split at live
    · next same =>
      subst same
      rw [lived] at live
      cases live
      have said : event.word? earlier.id = some response.reply :=
        (Event.word?_eq_some_iff (fromNode_reply response)).mpr ⟨response, read, named, rfl⟩
      exact .inr ⟨earlier, lived, by simp, by simp [said]⟩
    · next elsewhere =>
      have silent : event.word? w.id = none := by
        refine Event.word?_eq_none_iff.mpr ⟨?_, ?_⟩
        · rintro failure rfl
          cases read
        · intro same reread meant
          cases read.symm.trans reread
          have sameId := Option.some.inj (named.symm.trans meant)
          exact elsewhere (sound.ticket_eq lived live sameId)
      exact .inr ⟨w, live, rfl, by simp [silent]⟩
  | @ignored event frame unlisted =>
    cases answer : w.answer with
    | some reply => exact .inr ⟨w, live, rfl, by simp [answer]⟩
    | none =>
      have silent : event.word? w.id = none := by
        refine Event.word?_eq_none_iff.mpr ⟨?_, ?_⟩
        · rintro failure rfl
          cases frame
        · intro response read meant
          have entry := (sound.table w.id ticket).mpr ⟨w, live, rfl, answer⟩
          exact unlisted response w.id read meant
            (Std.ExtTreeMap.isSome_getElem?_iff_mem.mp (by simp [entry]))
      exact .inr ⟨w, live, rfl, by simp [answer, silent]⟩
  | shutDown =>
    simp only [Socket.ended, Std.ExtTreeMap.getElem?_map] at live
    obtain ⟨earlier, lived, rfl⟩ := Option.map_eq_some_iff.mp live
    exact .inr ⟨earlier, lived, by simp, by simp [Event.word?]⟩
  | shutAgain closed =>
    obtain ⟨reply, first⟩ := Option.ne_none_iff_exists'.mp (sound.answered_of_closed closed live)
    exact .inr ⟨w, live, rfl, by simp [first]⟩

theorem Course.snoc {origin : Socket} {events since : List Event} {ticket : Nat} {id : UInt64}
    (course : Course origin events ticket id since) (event : Event)
    (live : ticket ∈ (origin.after (events ++ [event])).calls) :
    Course origin (events ++ [event]) ticket id (since ++ [event]) := by
  obtain ⟨before, begun, body, rfl, started, there⟩ := course
  refine ⟨before, begun, body, by simp, started, ?_⟩
  intro earlier later split
  rcases List.eq_nil_or_concat later with rfl | ⟨rest, last, rfl⟩
  · rw [List.append_nil] at split
    simpa [← split] using live
  · rw [List.concat_eq_append, ← List.append_assoc] at split
    exact there earlier rest (List.append_inj' split rfl).1

theorem course_of_live (debug : Bool) (timeout : Option Duration) (events : List Event)
    (few : events.countP Event.isStart < UInt64.size) {ticket : Nat} {w : Waiting}
    (live : ((new debug timeout).after events).calls[ticket]? = some w) :
    ∃ since, Course (new debug timeout) events ticket w.id since ∧
      w.answer = since.findSome? (Event.word? w.id) := by
  induction events using List.reverseRecOn generalizing w with
  | nil => simp [after, run, new] at live
  | append_singleton events event ih =>
    have fewer : events.countP Event.isStart < UInt64.size := by
      rw [List.countP_append] at few
      omega
    obtain ⟨sound, issued⟩ := sound_after debug timeout events fewer
    have there : ticket ∈ ((new debug timeout).after (events ++ [event])).calls := by
      simp [Std.ExtTreeMap.mem_iff_isSome_getElem?, live]
    rw [after_snoc] at live
    have move := step_move sound (by omega) event
    rcases move.call_origin sound live with
      ⟨body, started, unanswered⟩ | ⟨earlier, lived, sameId, kept⟩
    · refine ⟨[], ⟨events, event, body, rfl, started, ?_⟩, unanswered⟩
      intro earlier later split
      rw [(List.append_eq_nil_iff.mp split.symm).1]
      exact there
    · obtain ⟨since, course, answer⟩ := ih fewer lived
      refine ⟨since ++ [event], ?_, ?_⟩
      · rw [sameId]
        exact course.snoc event there
      · rw [kept, answer, sameId, List.findSome?_append]
        simp

/-! ### What calls return and what frames do -/

theorem Waiting.look_eq_some_iff {w : Waiting} {expired : Bool} {reply : Reply}
    (node : fromNode reply = true) :
    w.look expired = some reply ↔ w.aborted = false ∧ w.answer = some reply := by
  unfold look CallOptions.Moment.look
  cases w.aborted with
  | true =>
    simp only [if_true, Option.some.injEq, Bool.true_eq_false, false_and, iff_false]
    rintro rfl
    cases node
  | false =>
    cases w.answer with
    | some first => simp
    | none =>
      simp only [Bool.false_eq_true, if_false, Option.map_eq_some_iff, true_and, reduceCtorEq,
        iff_false, not_exists, not_and]
      rintro limit - rfl
      cases node

theorem poll_ended_iff {s : Socket} {ticket : Nat} {w : Waiting}
    (live : s.calls[ticket]? = some w) (expired : Bool) (reply : Reply) :
    (s.step (.poll ticket expired)).1 = .ended (some ticket) reply ↔
      w.look expired = some reply := by
  simp only [step, poll, live]
  cases w.look expired <;> simp

/-- Only a call that is there, when it is looked at, brings back what the node says. -/
theorem Move.poll_of_node {s next : Socket} {event : Event} {who : Option Nat} {reply : Reply}
    (move : Move s event (.ended who reply) next) (node : fromNode reply = true) :
    ∃ ticket expired w, event = .poll ticket expired ∧ who = some ticket ∧
      s.calls[ticket]? = some w := by
  cases move with
  | refused => cases node
  | @ended ticket expired w reply live look => exact ⟨ticket, expired, w, rfl, rfl, live⟩

/-- A call that a frame changes is the only one, had no answer and gets what the frame
says under its id. -/
theorem Move.settled_by_frame {s next : Socket} {event : Event} {report : Report}
    (move : Move s event report next) (sound : s.Sound) (frame : event.isFrame = true)
    {ticket : Nat} (changed : next.calls[ticket]? ≠ s.calls[ticket]?) :
    ∃ w response, s.calls[ticket]? = some w ∧ w.answer = none ∧
      event.response? = some response ∧ response.id = some w.id ∧
      next.calls[ticket]? = some { w with answer := some response.reply } ∧
      ∀ other : Nat, other ≠ ticket → next.calls[other]? = s.calls[other]? := by
  cases move with
  | ignored => exact absurd rfl changed
  | @answered event response id owner read named entry =>
    obtain ⟨w, live, rfl, unanswered⟩ := (sound.table id owner).mp entry
    simp only [Socket.answered, getElem?_modify_calls] at changed ⊢
    by_cases same : owner = ticket
    · subst same
      refine ⟨w, response, live, unanswered, read, named, ?_, ?_⟩
      · simp [live, Waiting.deliver, unanswered]
      · intro other different
        rw [if_neg (Ne.symm different)]
    · rw [if_neg same] at changed
      exact absurd rfl changed
  | _ => cases frame

/-- As long as ids are left, a call that brings back what the node says brings back the
first answer with its own id that came while the call was there. A frame settles at most
one call, under its own id, and one that finds no entry in the table changes nothing. -/
theorem answers_reach_their_calls (debug : Bool) (timeout : Option Duration)
    (events : List Event) (few : events.countP Event.isStart < UInt64.size) :
    let s := (new debug timeout).after events
    (∀ event who reply, fromNode reply = true → (s.step event).1 = .ended who reply →
      ∃ ticket id since, who = some ticket ∧
        Course (new debug timeout) events ticket id since ∧ FirstAnswer id since reply) ∧
    (∀ (ticket : Nat) (w : Waiting), s.calls[ticket]? = some w →
      ∃ since, Course (new debug timeout) events ticket w.id since ∧
        ∀ expired reply, fromNode reply = true →
          ((s.step (.poll ticket expired)).1 = .ended (some ticket) reply ↔
            w.aborted = false ∧ FirstAnswer w.id since reply)) ∧
    (∀ event, event.isFrame = true → ∀ ticket : Nat,
      (s.step event).2.2.calls[ticket]? ≠ s.calls[ticket]? →
      ∃ w response, s.calls[ticket]? = some w ∧ w.answer = none ∧
        event.response? = some response ∧ response.id = some w.id ∧
        (s.step event).2.2.calls[ticket]? = some { w with answer := some response.reply } ∧
        ∀ other : Nat, other ≠ ticket → (s.step event).2.2.calls[other]? = s.calls[other]?) ∧
    (∀ event, event.isFrame = true →
      (∀ response id, event.response? = some response → response.id = some id →
        id ∉ s.connection.table) → s.step event = (.noted, [], s)) ∧
    ∀ (id : UInt64) (ticket : Nat), s.connection.table[id]? = some ticket ↔
      ∃ w, s.calls[ticket]? = some w ∧ w.id = id ∧ w.answer = none := by
  intro s
  obtain ⟨sound, issued⟩ := sound_after debug timeout events few
  have move := step_move sound (Nat.lt_of_le_of_lt issued few)
  have returned : ∀ (ticket : Nat) (w : Waiting), s.calls[ticket]? = some w →
      ∃ since, Course (new debug timeout) events ticket w.id since ∧
        ∀ expired reply, fromNode reply = true →
          ((s.step (.poll ticket expired)).1 = .ended (some ticket) reply ↔
            w.aborted = false ∧ FirstAnswer w.id since reply) := by
    intro ticket w live
    obtain ⟨since, course, answer⟩ := course_of_live debug timeout events few live
    refine ⟨since, course, ?_⟩
    intro expired reply node
    rw [poll_ended_iff live, Waiting.look_eq_some_iff node, answer, findSome?_word?_iff node]
  refine ⟨?_, returned, ?_, ?_, sound.table⟩
  · intro event who reply node reported
    have ended := move event
    rw [reported] at ended
    obtain ⟨ticket, expired, w, rfl, rfl, live⟩ := ended.poll_of_node node
    obtain ⟨since, course, precise⟩ := returned ticket w live
    exact ⟨ticket, w.id, since, rfl, course, ((precise expired reply node).mp reported).2⟩
  · intro event frame ticket changed
    exact (move event).settled_by_frame sound frame changed
  · intro event frame unlisted
    exact step_of_unlisted frame unlisted

/-- Two calls start. The second is answered twice before the first is, and a frame comes
for an id that no call has. -/
def crossed : List Event :=
  [.start ⟨"eth_blockNumber", []⟩ ⟨none⟩ false, .start ⟨"net_version", []⟩ ⟨none⟩ true,
    .text "\x7b\"id\":9,\"result\":null\x7d", .text "\x7b\"id\":2,\"result\":true\x7d",
    .text "\x7b\"id\":2,\"result\":false\x7d", .text "\x7b\"id\":1,\"result\":null\x7d"]

def Report.truth? : Report → Option (Nat × Bool)
  | .ended (some ticket) (.ok (.bool value)) => some (ticket, value)
  | _ => none

theorem Report.eq_of_truth? {report : Report} {ticket : Nat} {value : Bool}
    (told : report.truth? = some (ticket, value)) :
    report = .ended (some ticket) (.ok (.bool value)) := by
  unfold truth? at told
  split at told
  · cases told
    rfl
  · cases told

/-- The second call brings back its first answer. -/
theorem crossed_second_answered :
    (((new false none).after crossed).step (.poll 1 true)).1 =
        .ended (some 1) (.ok (.bool true)) ∧
      ∃ ticket id since, some 1 = some ticket ∧
        Course (new false none) crossed ticket id since ∧
        FirstAnswer id since (.ok (.bool true)) := by
  have reported := Report.eq_of_truth?
    (show (((new false none).after crossed).step (.poll 1 true)).1.truth? = some (1, true) by
      decide +kernel)
  have few : crossed.countP Event.isStart < UInt64.size := by decide
  exact ⟨reported, (answers_reach_their_calls false none crossed few).1 _ _ _ rfl reported⟩

end Countersign.Socket
