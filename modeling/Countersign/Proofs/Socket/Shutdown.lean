import Countersign.Proofs.Socket.Deeds

set_option autoImplicit false

/-!
# The end of a connection strands no call

All that a socket does to its connection is a list of deeds, and the answer that a call
holds is the first reply that was sent to it. So when the connection has ended, every call
that is still there has an answer: the one it had, or that the connection is closed.
-/

namespace Countersign.Socket

open Std

def deed? (s : Socket) : Event → Option Deed
  | .start _ _ _ => if s.connection.connected then some (.register s.encoder.nextId) else none
  | .text frame => some (.text frame)
  | .binary frame => some (.binary frame)
  | .poll ticket expired =>
    s.calls[ticket]?.bind fun w => (w.look expired).map fun _ => .release w.id
  | .abort _ => none
  | .drop ticket => s.calls[ticket]?.map fun w => .release w.id
  | .shutDown failure => some (.shutDown failure)

def deeds (s : Socket) : List Event → List Deed
  | [] => []
  | event :: rest => (s.deed? event).toList ++ (s.step event).2.2.deeds rest

/-! ### Answers are first replies -/

theorem getElem?_foldl_deliver (s : Socket) (deliveries : List Delivery) (ticket : Nat) :
    (deliveries.foldl deliver s).calls[ticket]? =
      s.calls[ticket]?.map fun w =>
        { w with
          answer := w.answer.or ((deliveries.filter (·.ticket == ticket)).map (·.reply)).head? } := by
  induction deliveries generalizing s with
  | nil => simp
  | cons first rest ih =>
    rw [List.foldl_cons, ih, deliver, getElem?_modify_calls]
    by_cases same : first.ticket = ticket
    · cases s.calls[ticket]? with
      | none => simp
      | some w => cases answer : w.answer <;> simp [same, Waiting.deliver, answer]
    · simp [same]

theorem foldl_deliver_frame (s : Socket) (deliveries : List Delivery) :
    deliveries.foldl deliver s = { s with calls := (deliveries.foldl deliver s).calls } := by
  induction deliveries generalizing s with
  | nil => rfl
  | cons first rest ih => exact ih (s.deliver first)

theorem settle_connection (s : Socket) (result : List Delivery × Connection) :
    (s.settle result).connection = result.2 := by
  rw [settle, foldl_deliver_frame]

theorem settle_nextTicket (s : Socket) (result : List Delivery × Connection) :
    (s.settle result).nextTicket = s.nextTicket := by
  rw [settle, foldl_deliver_frame]

/-- Every call has a number on the line, and its answer is the first reply sent to it. -/
def Heard (calls : ExtTreeMap Nat Waiting) (l : Line) : Prop :=
  ∀ (ticket : Nat) (w : Waiting), calls[ticket]? = some w →
    ticket < l.entered ∧ w.answer = (l.repliesTo ticket).head?

theorem Heard.settle {s : Socket} {l : Line} (heard : Heard s.calls l)
    (result : List Delivery × Connection) : Heard (s.settle result).calls (l.take result) := by
  intro ticket w live
  rw [Socket.settle, getElem?_foldl_deliver, Option.map_eq_some_iff] at live
  obtain ⟨earlier, lived, rfl⟩ := live
  obtain ⟨issued, answer⟩ := heard ticket earlier lived
  refine ⟨issued, ?_⟩
  rw [Line.repliesTo_take, List.head?_append, answer]

theorem Heard.erase {calls : ExtTreeMap Nat Waiting} {l : Line} (heard : Heard calls l)
    (ticket : Nat) : Heard (calls.erase ticket) l := by
  intro other w live
  rw [ExtTreeMap.getElem?_erase, Option.ite_none_left_eq_some] at live
  exact heard other w live.2

/-- The line has the connection of the socket and has sent what its calls have heard. -/
structure Mirrors (s : Socket) (l : Line) : Prop where
  connection : s.connection = l.connection
  tickets : s.nextTicket = l.entered
  heard : Heard s.calls l

theorem Mirrors.settle {s : Socket} {l : Line} (mirrors : s.Mirrors l)
    (act : Connection → List Delivery × Connection) :
    (s.settle (act s.connection)).Mirrors (l.take (act l.connection)) := by
  rw [mirrors.connection]
  exact ⟨settle_connection s _, (settle_nextTicket s _).trans mirrors.tickets,
    mirrors.heard.settle _⟩

theorem Mirrors.forget {s : Socket} {l : Line} (mirrors : s.Mirrors l) (ticket : Nat)
    (id : UInt64) : (s.forget ticket id).Mirrors (l.perform (.release id)) := by
  have without : { s with calls := s.calls.erase ticket }.Mirrors l :=
    ⟨mirrors.connection, mirrors.tickets, mirrors.heard.erase ticket⟩
  exact without.settle (·.release id)

/-- A call that enters waits without an answer, and whoever had its id hears of it. -/
theorem start_of_registered {s : Socket} {result : List Delivery × Connection}
    (connected : s.connection.connected = true)
    (registered : s.connection.register s.encoder.nextId s.nextTicket = .ok result) (call : Call)
    (options : CallOptions) (abortable : Bool) :
    ∃ (begun : Socket) (w : Waiting), begun.calls = s.calls ∧
      begun.nextTicket = s.nextTicket + 1 ∧ w.answer = none ∧
      (s.start call options abortable).2.2 =
        { begun.settle result with calls := (begun.settle result).calls.insert s.nextTicket w } := by
  refine ⟨{ s with encoder := s.encoder.advance, nextTicket := s.nextTicket + 1 },
    ⟨call.method, s.encoder.nextId, (options.orDefault s.timeout).timeout, abortable, false, none⟩,
    rfl, rfl, rfl, ?_⟩
  simp only [start, connected, if_true, Rpc.Encoder.encode, registered]

theorem Mirrors.start {s : Socket} {l : Line} (mirrors : s.Mirrors l) (accounted : l.Accounted)
    (connected : s.connection.connected = true) (call : Call) (options : CallOptions)
    (abortable : Bool) :
    (s.start call options abortable).2.2.Mirrors (l.perform (.register s.encoder.nextId)) := by
  have unsealed : l.connection.sealed = false := by
    rw [accounted.sealed, ← mirrors.connection, connected]
    rfl
  obtain ⟨result, registered, entry⟩ : ∃ result : List Delivery × Connection,
      l.connection.register s.encoder.nextId l.entered = .ok result ∧
        result.2.table[s.encoder.nextId]? = some l.entered :=
    ⟨_, Connection.register_of_unsealed unsealed _ _, by simp⟩
  have later := accounted.register s.encoder.nextId
  simp only [Line.perform, registered] at later ⊢
  rw [← mirrors.connection, ← mirrors.tickets] at registered
  obtain ⟨begun, w, calls, tickets, unanswered, started⟩ :=
    start_of_registered connected registered call options abortable
  rw [started]
  refine ⟨settle_connection begun result, ?_, ?_⟩
  · rw [settle_nextTicket, tickets, mirrors.tickets]
  · intro ticket held live
    rw [ExtTreeMap.getElem?_insert] at live
    split at live
    · next same =>
      cases live
      cases Std.compare_eq_iff_eq.mp same
      have silent := later.waiting _ _ entry
      rw [mirrors.tickets, silent]
      exact ⟨Nat.lt_succ_self _, unanswered⟩
    · have heard : Heard begun.calls l := calls ▸ mirrors.heard
      obtain ⟨issued, answer⟩ := heard.settle result ticket held live
      exact ⟨Nat.lt_succ_of_lt issued, answer⟩

theorem Mirrors.step {s : Socket} {l : Line} (mirrors : s.Mirrors l) (accounted : l.Accounted)
    (event : Event) :
    (s.step event).2.2.Mirrors (l.performAll (s.deed? event).toList) := by
  cases event with
  | start call options abortable =>
    cases connected : s.connection.connected with
    | true =>
      rw [deed?, if_pos connected]
      exact mirrors.start accounted connected call options abortable
    | false =>
      have refused : (s.start call options abortable).2.2 = s := by simp [Socket.start, connected]
      rw [deed?, if_neg (by simp [connected]), Socket.step, refused]
      exact mirrors
  | text frame => exact mirrors.settle (·.dispatch frame)
  | binary frame => exact mirrors.settle (·.dispatchBytes frame)
  | poll ticket expired =>
    simp only [Socket.step, poll, deed?]
    cases s.calls[ticket]? with
    | none => exact mirrors
    | some w =>
      simp only [Option.bind_some]
      cases w.look expired with
      | none => exact mirrors
      | some reply => exact mirrors.forget ticket w.id
  | abort ticket =>
    refine ⟨mirrors.connection, mirrors.tickets, ?_⟩
    intro other w live
    simp only [Socket.step, getElem?_modify_calls] at live
    split at live
    · obtain ⟨earlier, lived, rfl⟩ := Option.map_eq_some_iff.mp live
      exact mirrors.heard other earlier lived
    · exact mirrors.heard other w live
  | drop ticket =>
    simp only [Socket.step, deed?]
    cases s.calls[ticket]? with
    | none => exact mirrors
    | some w => exact mirrors.forget ticket w.id
  | shutDown failure => exact mirrors.settle (·.shutDown failure)

theorem after_append (s : Socket) (first second : List Event) :
    s.after (first ++ second) = (s.after first).after second := by
  induction first generalizing s with
  | nil => rfl
  | cons event rest ih => exact ih (s.step event).2.2

theorem Mirrors.after {s : Socket} {l : Line} (mirrors : s.Mirrors l) (accounted : l.Accounted)
    (events : List Event) : (s.after events).Mirrors (l.performAll (s.deeds events)) := by
  induction events generalizing s l with
  | nil => exact mirrors
  | cons event rest ih =>
    rw [deeds, Line.performAll_append]
    exact ih (mirrors.step accounted event) (accounted.performAll _)

theorem mirrors_new (debug : Bool) (timeout : Option Duration) :
    (new debug timeout).Mirrors .new where
  connection := rfl
  tickets := rfl
  heard := by simp [Heard, new]

/-- Only a shut-down of the socket is one of its connection. -/
theorem mem_of_shutDown_mem_deeds {s : Socket} {events : List Event} {failure : Option String}
    (membership : .shutDown failure ∈ s.deeds events) : .shutDown failure ∈ events := by
  induction events generalizing s with
  | nil => cases membership
  | cons event rest ih =>
    rcases List.mem_append.mp membership with first | later
    · have same : event = .shutDown failure := by
        rw [Option.mem_toList] at first
        cases event with
        | shutDown again => simpa [deed?] using first
        | _ => simp [deed?, Option.bind_eq_some_iff] at first
      exact same ▸ List.mem_cons_self
    · exact List.mem_cons_of_mem _ (ih later)

theorem isShutDown_deeds {s : Socket} {events : List Event}
    (others : ∀ failure, .shutDown failure ∉ events) :
    ∀ deed ∈ s.deeds events, deed.isShutDown = false := by
  intro deed membership
  cases deed with
  | shutDown failure => exact absurd (mem_of_shutDown_mem_deeds membership) (others failure)
  | _ => rfl

/-! ### Which calls are still there -/

theorem mem_calls_settle (s : Socket) (result : List Delivery × Connection) (ticket : Nat) :
    ticket ∈ (s.settle result).calls ↔ ticket ∈ s.calls := by
  rw [← ExtTreeMap.isSome_getElem?_iff_mem, settle, getElem?_foldl_deliver, Option.isSome_map,
    ExtTreeMap.isSome_getElem?_iff_mem]

theorem mem_calls_forget (s : Socket) (gone : Nat) (id : UInt64) (ticket : Nat) :
    ticket ∈ (s.forget gone id).calls ↔ gone ≠ ticket ∧ ticket ∈ s.calls := by
  rw [forget, mem_calls_settle, ExtTreeMap.mem_erase]
  simp

/-- The event may make an end of the call. -/
def Event.concerns (ticket : Nat) : Event → Bool
  | .poll polled _ => polled == ticket
  | .drop dropped => dropped == ticket
  | _ => false

/-- When the connection has ended no call comes, and one goes only by an event that
concerns it. -/
theorem calls_step_of_closed {s : Socket} (closed : s.connection.connected = false)
    (event : Event) :
    (∀ ticket, ticket ∈ (s.step event).2.2.calls ↔ ticket ∈ s.calls) ∨
      ∃ gone, event.concerns gone = true ∧
        ∀ ticket, ticket ∈ (s.step event).2.2.calls ↔ gone ≠ ticket ∧ ticket ∈ s.calls := by
  cases event with
  | start call options abortable =>
    left
    simp [step, start, closed]
  | text frame | binary frame | shutDown failure => exact .inl (mem_calls_settle s _)
  | poll polled expired =>
    simp only [step, poll]
    split
    · exact .inl fun _ => Iff.rfl
    · split
      · exact .inl fun _ => Iff.rfl
      · exact .inr ⟨polled, beq_self_eq_true polled, mem_calls_forget s polled _⟩
  | abort aborted =>
    left
    simp [step, ExtTreeMap.mem_modify]
  | drop dropped =>
    simp only [step]
    split
    · exact .inl fun _ => Iff.rfl
    · exact .inr ⟨dropped, beq_self_eq_true dropped, mem_calls_forget s dropped _⟩

theorem Mirrors.after_ended {s : Socket} {l : Line} {signals : List Signal}
    (mirrors : s.Mirrors l) (accounted : l.Accounted)
    (ended : l.connection = ⟨false, true, ∅, signals⟩) (events : List Event) :
    (s.after events).Mirrors l := by
  have run := mirrors.after accounted events
  rwa [Line.performAll_of_ended ended] at run

theorem Mirrors.mem_calls_of_after {s : Socket} {l : Line} {signals : List Signal}
    (mirrors : s.Mirrors l) (accounted : l.Accounted)
    (ended : l.connection = ⟨false, true, ∅, signals⟩) (events : List Event) (ticket : Nat) :
    (ticket ∈ (s.after events).calls → ticket ∈ s.calls) ∧
      ((∀ event ∈ events, event.concerns ticket = false) → ticket ∈ s.calls →
        ticket ∈ (s.after events).calls) := by
  induction events generalizing s with
  | nil => exact ⟨id, fun _ => id⟩
  | cons event rest ih =>
    have closed : s.connection.connected = false := by rw [mirrors.connection, ended]
    obtain ⟨back, on⟩ := ih (mirrors.after_ended accounted ended [event])
    rcases calls_step_of_closed closed event with same | ⟨gone, concerns, fewer⟩
    · refine ⟨fun live => (same ticket).mp (back live), ?_⟩
      intro left live
      exact on (fun other member => left other (List.mem_cons_of_mem _ member))
        ((same ticket).mpr live)
    · refine ⟨fun live => ((fewer ticket).mp (back live)).2, ?_⟩
      intro left live
      refine on (fun other member => left other (List.mem_cons_of_mem _ member))
        ((fewer ticket).mpr ⟨?_, live⟩)
      rintro rfl
      cases concerns.symm.trans (left event List.mem_cons_self)

/-! ### The end -/

/-- A call that finds the table closed ends there, whatever the flag was when it looked. -/
theorem start_of_sealed {s : Socket} (sealed : s.connection.sealed = true) (call : Call)
    (options : CallOptions) (abortable : Bool) :
    (s.start call options abortable).1 = .ended none (.error .connectionClosed) ∧
      (s.start call options abortable).2.2.connection = s.connection ∧
      (s.start call options abortable).2.2.calls = s.calls := by
  cases connected : s.connection.connected <;>
    simp [start, connected, Connection.register, sealed]

/-- A line has ended: those that were held in the table are told so, all others keep the
one reply that they had, and nobody enters again. -/
structure Line.Dismissed (held final : Line) (failure : Option String) : Prop where
  connection : final.connection =
    ⟨false, true, ∅, failure.toList.map .failed ++ [.closed]⟩
  entered : final.entered = held.entered
  told : ∀ (id : UInt64) (ticket : Nat), held.connection.table[id]? = some ticket →
    held.repliesTo ticket = [] ∧ final.repliesTo ticket = [.error .connectionClosed]
  kept : ∀ ticket < held.entered,
    (∀ id : UInt64, held.connection.table[id]? ≠ some ticket) →
      ∃ reply, held.repliesTo ticket = [reply] ∧ final.repliesTo ticket = [reply]
  closed : ∀ id ticket, final.connection.register id ticket = .error .connectionClosed
  /-- Also a call that has seen the flag before it went down. -/
  refused : ∀ (s : Socket) (seen : Bool),
    s.connection = { final.connection with connected := seen } →
      ∀ call options abortable,
        (s.start call options abortable).1 = .ended none (.error .connectionClosed) ∧
          (s.start call options abortable).2.2.connection = s.connection ∧
          (s.start call options abortable).2.2.calls = s.calls

theorem Line.Accounted.dismissed {l : Line} (accounted : l.Accounted)
    (opened : l.connection = { Connection.new with table := l.connection.table })
    (failure : Option String) (after : List Deed) :
    l.Dismissed ((l.perform (.shutDown failure)).performAll after) failure := by
  have connected : l.connection.connected = true := by rw [opened]; rfl
  have signals : l.connection.signals = [] := by rw [opened]; rfl
  have ended : (l.perform (.shutDown failure)).connection =
      ⟨false, true, ∅, failure.toList.map .failed ++ [.closed]⟩ := by
    simp [Line.perform, Line.take, Connection.shutDown, connected, signals]
  have replies : ∀ ticket, (l.perform (.shutDown failure)).repliesTo ticket =
      l.repliesTo ticket ++
        if ticket ∈ l.connection.table.values then [.error .connectionClosed] else [] := by
    simp only [Line.perform, Connection.shutDown, if_pos connected]
    exact accounted.repliesTo_closed (.error .connectionClosed) _
  rw [Line.performAll_of_ended ended]
  refine ⟨ended, rfl, ?_, ?_, ?_, ?_⟩
  · intro id ticket entry
    have listed := (mem_values_iff _ ticket).mpr ⟨id, entry⟩
    have silent := accounted.waiting id ticket entry
    exact ⟨silent, by rw [replies, silent, if_pos listed]; rfl⟩
  · intro ticket issued gone
    have unlisted : ticket ∉ l.connection.table.values := by
      intro listed
      obtain ⟨id, entry⟩ := (mem_values_iff _ ticket).mp listed
      exact gone id entry
    obtain ⟨reply, sent⟩ := accounted.answered ticket issued gone
    exact ⟨reply, sent, by rw [replies, sent, if_neg unlisted]; rfl⟩
  · intro id ticket
    rw [ended]
    rfl
  · intro s seen same
    refine start_of_sealed ?_
    rw [same, ended]

theorem connected_of_others {deeds : List Deed}
    (others : ∀ deed ∈ deeds, deed.isShutDown = false) :
    (Line.new.performAll deeds).connection.connected = true := by
  rw [Line.new.performAll_connection others]
  rfl

/-- What is done between the two halves of a shut-down is as if it had been done before. -/
theorem dismissed_between (failure : Option String) {before : List Deed}
    (others : ∀ deed ∈ before, deed.isShutDown = false) (between after : List Deed) :
    let held := (Line.new.performAll before).lower.performAll between
    held.Dismissed ((held.close failure).performAll after) failure := by
  intro held
  let all := before ++ between.filter (!·.isShutDown)
  have quiet : ∀ deed ∈ all, deed.isShutDown = false := by
    intro deed membership
    rcases List.mem_append.mp membership with early | late
    · exact others deed early
    · simpa using (List.mem_filter.mp late).2
  have lowered : held = (Line.new.performAll all).lower := by
    rw [Line.performAll_append, ← Line.performAll_lower]
  have dismissed := (Line.accounted_new.performAll all).dismissed
    (Line.new.performAll_connection quiet) failure after
  rw [lowered, Line.close_lower (connected_of_others quiet)]
  exact ⟨dismissed.connection, dismissed.entered, dismissed.told, dismissed.kept,
    dismissed.closed, dismissed.refused⟩

theorem Waiting.look_of_answer {w : Waiting} {reply : Reply} (answer : w.answer = some reply)
    (expired : Bool) :
    w.look expired = some (if w.aborted then .error .cancelled else reply) := by
  cases aborted : w.aborted <;> simp [look, CallOptions.Moment.look, aborted, answer]

/-- A socket has ended after the moment: it takes no call any more, and every call that is
left ends when it is looked at next, unless aborted with the answer it had at the moment or
else because the connection is closed. -/
structure Over (moment s : Socket) (failure : Option String) : Prop where
  connection : s.connection = ⟨false, true, ∅, failure.toList.map .failed ++ [.closed]⟩
  refused : ∀ call options abortable, s.step (.start call options abortable) =
    (.ended none (.error .connectionClosed), [], s)
  answered : ∀ (ticket : Nat) (w : Waiting), s.calls[ticket]? = some w →
    ∃ earlier, moment.calls[ticket]? = some earlier ∧
      ∀ expired, (s.step (.poll ticket expired)).1 = .ended (some ticket)
        (if w.aborted then .error .cancelled
          else earlier.answer.getD (.error .connectionClosed))

theorem Line.Dismissed.socket_over {held final : Line} {failure : Option String}
    (dismissed : held.Dismissed final failure) {moment s : Socket} (before : moment.Mirrors held)
    (now : s.Mirrors final) (fewer : ∀ ticket ∈ s.calls, ticket ∈ moment.calls) :
    Over moment s failure := by
  have connection := now.connection.trans dismissed.connection
  refine ⟨connection, ?_, ?_⟩
  · intro call options abortable
    simp [step, start, connection]
  · intro ticket w live
    have present := fewer ticket (mem_iff_getElem?.mpr ⟨w, live⟩)
    obtain ⟨earlier, lived⟩ := mem_iff_getElem?.mp present
    obtain ⟨issued, had⟩ := before.heard ticket earlier lived
    have has := (now.heard ticket w live).2
    have answer : w.answer = some (earlier.answer.getD (.error .connectionClosed)) := by
      by_cases listed : ∃ id : UInt64, held.connection.table[id]? = some ticket
      · obtain ⟨id, entry⟩ := listed
        obtain ⟨silent, told⟩ := dismissed.told id ticket entry
        simp [has, had, silent, told]
      · obtain ⟨reply, sent, kept⟩ := dismissed.kept ticket issued (not_exists.mp listed)
        simp [has, had, sent, kept]
    refine ⟨earlier, lived, ?_⟩
    intro expired
    simp only [step, poll, live, Waiting.look_of_answer answer]

/-- A connection ends once and for all. Whatever others do between the moment the flag goes
down and the moment the table is closed, and whatever is done later, those in the table get
one reply, that the connection is closed, and all others keep theirs. So every call on a
socket whose connection has ended has its answer. -/
theorem shutDown_strands_no_call (failure : Option String) :
    (∀ before between after : List Deed, (∀ deed ∈ before, deed.isShutDown = false) →
      let early := Line.new.performAll before
      let held := early.lower.performAll between
      held.Dismissed ((held.close failure).performAll after) failure ∧
        Line.new.performAll (before ++ .shutDown failure :: after) =
          (early.lower.close failure).performAll after) ∧
      ∀ (debug : Bool) (timeout : Option Duration) (before after : List Event),
        (∀ again, .shutDown again ∉ before) →
        let moment := (new debug timeout).after before
        let s := (new debug timeout).after (before ++ .shutDown failure :: after)
        Over moment s failure ∧
          ∀ ticket ∈ moment.calls, (∀ event ∈ after, event.concerns ticket = false) →
            ticket ∈ s.calls := by
  refine ⟨?_, ?_⟩
  · intro before between after others
    refine ⟨dismissed_between failure others between after, ?_⟩
    rw [Line.performAll_append, Line.close_lower (connected_of_others others)]
    rfl
  · intro debug timeout before after others moment s
    have accounted := Line.accounted_new.performAll ((new debug timeout).deeds before)
    have mirrors : moment.Mirrors _ := (mirrors_new debug timeout).after Line.accounted_new before
    have dismissed := accounted.dismissed
      (Line.new.performAll_connection (isShutDown_deeds others)) failure []
    have ended := mirrors.step accounted (.shutDown failure)
    have split : s = (moment.step (.shutDown failure)).2.2.after after := after_append _ _ _
    have calls : ∀ ticket, ticket ∈ (moment.step (.shutDown failure)).2.2.calls ↔
        ticket ∈ moment.calls := mem_calls_settle moment _
    have now := ended.after_ended (accounted.performAll _) dismissed.connection after
    have live := ended.mem_calls_of_after (accounted.performAll _) dismissed.connection after
    rw [split]
    refine ⟨dismissed.socket_over mirrors now ?_, ?_⟩
    · intro ticket present
      exact (calls ticket).mp ((live ticket).1 present)
    · intro ticket present left
      exact (live ticket).2 left ((calls ticket).mpr present)

def halfAnswered : List Deed :=
  [.register 1, .register 2, .text "\x7b\"id\":2,\"result\":true\x7d"]

/-- A third call has seen the flag up and enters when it is down already. It is told of the
end with the first one, and the second one keeps its answer. On a socket, a call that waits
at the end is still there after the second shut-down. -/
theorem late_entry_is_told :
    let held := (Line.new.performAll halfAnswered).lower.performAll [.register 3]
    let final := (held.close (some "reset")).performAll [.shutDown none, .register 4]
    let moment := (new false none).after [.start ⟨"net_version", []⟩ ⟨none⟩ false]
    let s := moment.after [.shutDown (some "reset"), .shutDown none]
    (final.repliesTo 0 = [.error .connectionClosed] ∧
      final.repliesTo 2 = [.error .connectionClosed] ∧
      (∃ reply, held.repliesTo 1 = [reply] ∧ final.repliesTo 1 = [reply]) ∧
      final.connection.signals = [.failed "reset", .closed]) ∧
      Over moment s (some "reset") ∧ 0 ∈ s.calls := by
  intro held final moment s
  have both : Over moment s (some "reset") ∧ ∀ ticket ∈ moment.calls,
      (∀ event ∈ [Event.shutDown none], event.concerns ticket = false) → ticket ∈ s.calls :=
    (shutDown_strands_no_call (some "reset")).2 false none
      [.start ⟨"net_version", []⟩ ⟨none⟩ false] [.shutDown none] (by simp)
  refine ⟨?_, both.1, both.2 0 (by decide +kernel) (by simp [Event.concerns])⟩
  have others : ∀ deed ∈ halfAnswered, deed.isShutDown = false := by decide
  have dismissed : held.Dismissed final (some "reset") :=
    ((shutDown_strands_no_call (some "reset")).1 halfAnswered [.register 3]
      [.shutDown none, .register 4] others).1
  have first : held.connection.table[(1 : UInt64)]? = some 0 := by decide +kernel
  have third : held.connection.table[(3 : UInt64)]? = some 2 := by decide +kernel
  have second : ∀ id : UInt64, held.connection.table[id]? ≠ some 1 := by
    intro id entry
    have listed := (mem_values_iff _ 1).mpr ⟨id, entry⟩
    revert listed
    decide +kernel
  refine ⟨(dismissed.told 1 0 first).2, (dismissed.told 3 2 third).2,
    dismissed.kept 1 (by decide +kernel) second, ?_⟩
  rw [dismissed.connection]
  rfl

end Countersign.Socket
