import Countersign.Proofs.Collections
import Countersign.Socket.Calls
import Mathlib.Data.List.Induction

set_option autoImplicit false

/-!
# What one event does to a socket

A socket is sound as long as its table holds exactly the calls that have not ended and
have no answer, each under an id of its own. Ids are the tickets counted from one, so they
differ until all of them have been used. On a sound socket the moves list once everything
that an event can do, and each move leaves the socket sound.
-/

namespace Countersign.Socket

open Std

def Event.frame? : Event → Option String
  | .text frame => some frame
  | .binary frame => Utf8.decode? frame
  | _ => none

def Event.response? (event : Event) : Option Rpc.Response :=
  event.frame?.bind fun frame => (Rpc.Response.decode frame).toOption

def Event.isFrame : Event → Bool
  | .text _ | .binary _ => true
  | _ => false

def Event.isStart : Event → Bool
  | .start _ _ _ => true
  | _ => false

def idOf (ticket : Nat) : UInt64 := UInt64.ofNat (ticket + 1)

theorem idOf_inj {first second : Nat} (small : first < UInt64.size) (small' : second < UInt64.size)
    (same : idOf first = idOf second) : first = second := by
  have numbers := congrArg UInt64.toNat same
  simp only [idOf, UInt64.toNat_ofNat', UInt64.size] at numbers small small'
  omega

structure Sound (s : Socket) : Prop where
  numbered : ∀ (ticket : Nat) (w : Waiting), s.calls[ticket]? = some w →
    ticket < s.nextTicket ∧ w.id = idOf ticket
  nextId : s.encoder.nextId = idOf s.nextTicket
  few : s.nextTicket ≤ UInt64.size
  table : ∀ (id : UInt64) (ticket : Nat), s.connection.table[id]? = some ticket ↔
    ∃ w, s.calls[ticket]? = some w ∧ w.id = id ∧ w.answer = none
  sealed : s.connection.sealed = !s.connection.connected
  closed : s.connection.connected = false → s.connection.table = ∅

theorem sound_new (debug : Bool) (timeout : Option Duration) : (new debug timeout).Sound where
  numbered := by simp [new]
  nextId := rfl
  few := Nat.zero_le _
  table := by simp [new, Connection.new]
  sealed := rfl
  closed := by simp [new, Connection.new]

section Sound

variable {s : Socket}

theorem Sound.ticket_eq (sound : s.Sound) {first second : Nat} {w w' : Waiting}
    (live : s.calls[first]? = some w) (live' : s.calls[second]? = some w')
    (same : w.id = w'.id) : first = second := by
  obtain ⟨issued, id⟩ := sound.numbered first w live
  obtain ⟨issued', id'⟩ := sound.numbered second w' live'
  have few := sound.few
  exact idOf_inj (by omega) (by omega) (by rw [← id, ← id', same])

theorem Sound.not_mem_next (sound : s.Sound) : s.calls[s.nextTicket]? = none := by
  cases live : s.calls[s.nextTicket]? with
  | none => rfl
  | some w => exact absurd (sound.numbered _ w live).1 (Nat.lt_irrefl _)

/-- The next id is free until all ids have been used. -/
theorem Sound.next_free (sound : s.Sound) (room : s.nextTicket < UInt64.size) :
    s.connection.table[s.encoder.nextId]? = none := by
  cases entry : s.connection.table[s.encoder.nextId]? with
  | none => rfl
  | some ticket =>
    obtain ⟨w, live, same, -⟩ := (sound.table _ ticket).mp entry
    obtain ⟨issued, id⟩ := sound.numbered ticket w live
    have equal : ticket = s.nextTicket := by
      refine idOf_inj (by omega) room ?_
      rw [← id, same, sound.nextId]
    omega

theorem Sound.answered_of_closed (sound : s.Sound) (closed : s.connection.connected = false)
    {ticket : Nat} {w : Waiting} (live : s.calls[ticket]? = some w) : w.answer ≠ none := by
  intro unanswered
  have entry := (sound.table w.id ticket).mpr ⟨w, live, rfl, unanswered⟩
  simp [sound.closed closed] at entry

end Sound

/-! ### Deliveries -/

@[simp]
theorem Waiting.deliver_id (w : Waiting) (reply : Reply) : (w.deliver reply).id = w.id := by
  unfold deliver
  split <;> rfl

@[simp]
theorem Waiting.deliver_answer (w : Waiting) (reply : Reply) :
    (w.deliver reply).answer = w.answer.or (some reply) := by
  unfold deliver
  split
  · next first => simp [first]
  · next none => simp [none]

theorem Waiting.deliver_of_answered {w : Waiting} (answered : w.answer ≠ none) (reply : Reply) :
    w.deliver reply = w := by
  unfold deliver
  split
  · rfl
  · contradiction

theorem Waiting.deliver_deliver (w : Waiting) (reply : Reply) :
    (w.deliver reply).deliver reply = w.deliver reply :=
  deliver_of_answered (by simp) reply

theorem getElem?_modify_calls (calls : ExtTreeMap Nat Waiting) (ticket other : Nat)
    (change : Waiting → Waiting) :
    (calls.modify ticket change)[other]? =
      if ticket = other then calls[other]?.map change else calls[other]? := by
  simp only [ExtTreeMap.getElem?_modify, Std.compare_eq_iff_eq]
  split
  · next same => rw [same]
  · rfl

theorem foldl_deliver (s : Socket) (tickets : List Nat) (reply : Reply) :
    (tickets.map fun ticket => (⟨ticket, reply⟩ : Delivery)).foldl deliver s =
      { s with calls :=
          s.calls.map fun ticket w => if ticket ∈ tickets then w.deliver reply else w } := by
  induction tickets generalizing s with
  | nil =>
    have same : (s.calls.map fun _ w => w) = s.calls := by
      apply ExtTreeMap.ext_getElem?
      simp
    simp [same]
  | cons head rest ih =>
    rw [List.map_cons, List.foldl_cons, ih, deliver]
    congr 1
    apply ExtTreeMap.ext_getElem?
    intro ticket
    rw [ExtTreeMap.getElem?_map, ExtTreeMap.getElem?_map, getElem?_modify_calls]
    by_cases same : head = ticket
    · subst same
      by_cases again : head ∈ rest <;>
        simp [again, Function.comp_def, Waiting.deliver_deliver]
    · simp [same, Ne.symm same]

/-! ### Moves -/

def without (s : Socket) (ticket : Nat) (id : UInt64) : Socket :=
  { s with
    connection := { s.connection with table := s.connection.table.erase id }
    calls := s.calls.erase ticket }

def answered (s : Socket) (id : UInt64) (ticket : Nat) (reply : Reply) : Socket :=
  { s with
    connection := { s.connection with table := s.connection.table.erase id }
    calls := s.calls.modify ticket (·.deliver reply) }

def entered (s : Socket) (call : Call) (options : CallOptions) (abortable : Bool) : Socket :=
  { s with
    encoder := s.encoder.advance
    connection :=
      { s.connection with table := s.connection.table.insert s.encoder.nextId s.nextTicket }
    calls := s.calls.insert s.nextTicket
      ⟨call.method, s.encoder.nextId, (options.orDefault s.timeout).timeout, abortable, false,
        none⟩
    nextTicket := s.nextTicket + 1 }

def ended (s : Socket) (failure : Option String) : Socket :=
  { s with
    connection := ⟨false, true, ∅, s.connection.signals ++ failure.toList.map .failed ++ [.closed]⟩
    calls := s.calls.map fun _ w => w.deliver (.error .connectionClosed) }

/-- Everything that an event can do to a socket. -/
inductive Move (s : Socket) : Event → Report → Socket → Prop where
  | refused {call : Call} {options : CallOptions} {abortable : Bool} :
      s.connection.connected = false →
      Move s (.start call options abortable) (.ended none (.error .connectionClosed)) s
  | entered {call : Call} {options : CallOptions} {abortable : Bool} :
      s.connection.connected = true →
      Move s (.start call options abortable) (.started s.nextTicket (s.encoder.encode call).1)
        (s.entered call options abortable)
  | answered {event : Event} {response : Rpc.Response} {id : UInt64} {ticket : Nat} :
      event.response? = some response → response.id = some id →
      s.connection.table[id]? = some ticket →
      Move s event .noted (s.answered id ticket response.reply)
  | ignored {event : Event} :
      event.isFrame = true →
      (∀ response id, event.response? = some response → response.id = some id →
        id ∉ s.connection.table) →
      Move s event .noted s
  | waiting {ticket : Nat} {expired : Bool} {w : Waiting} :
      s.calls[ticket]? = some w → w.look expired = none →
      Move s (.poll ticket expired) .waiting s
  | ended {ticket : Nat} {expired : Bool} {w : Waiting} {reply : Reply} :
      s.calls[ticket]? = some w → w.look expired = some reply →
      Move s (.poll ticket expired) (.ended (some ticket) reply) (s.without ticket w.id)
  | pollUnknown {ticket : Nat} {expired : Bool} :
      s.calls[ticket]? = none → Move s (.poll ticket expired) .noCall s
  | aborted {ticket : Nat} :
      Move s (.abort ticket) .noted
        { s with calls := s.calls.modify ticket fun w =>
            { w with aborted := w.aborted || w.abortable } }
  | dropped {ticket : Nat} {w : Waiting} :
      s.calls[ticket]? = some w → Move s (.drop ticket) .dropped (s.without ticket w.id)
  | dropUnknown {ticket : Nat} :
      s.calls[ticket]? = none → Move s (.drop ticket) .noCall s
  | shutDown {failure : Option String} :
      s.connection.connected = true → Move s (.shutDown failure) .noted (s.ended failure)
  | shutAgain {failure : Option String} :
      s.connection.connected = false → Move s (.shutDown failure) .noted s

theorem Sound.forget_eq {s : Socket} (sound : s.Sound) {ticket : Nat} {w : Waiting}
    (live : s.calls[ticket]? = some w) : s.forget ticket w.id = s.without ticket w.id := by
  simp only [forget, settle, Connection.release, Connection.abandon, foldl_deliver, without]
  congr 1
  apply ExtTreeMap.ext_getElem?
  intro other
  simp only [ExtTreeMap.getElem?_map, ExtTreeMap.getElem?_erase, Std.compare_eq_iff_eq]
  -- whoever waits under the id is the call that has just been taken out
  by_cases same : ticket = other
  · simp [same]
  · have elsewhere : s.connection.table[w.id]? ≠ some other := by
      intro entry
      obtain ⟨w', live', id, -⟩ := (sound.table _ _).mp entry
      exact same (sound.ticket_eq live live' id.symm)
    simp [same, elsewhere]

theorem Sound.shutDown_eq {s : Socket} (sound : s.Sound)
    (connected : s.connection.connected = true) (failure : Option String) :
    s.settle (s.connection.shutDown failure) = s.ended failure := by
  simp only [settle, Connection.shutDown, connected, if_true, foldl_deliver, Socket.ended]
  congr 1
  apply ExtTreeMap.ext_getElem?
  intro ticket
  rw [ExtTreeMap.getElem?_map, ExtTreeMap.getElem?_map]
  cases live : s.calls[ticket]? with
  | none => rfl
  | some w =>
    simp only [Option.map_some, Option.some.injEq]
    split
    · rfl
    · next absent =>
      refine (Waiting.deliver_of_answered ?_ _).symm
      intro unanswered
      have entry := (sound.table w.id ticket).mpr ⟨w, live, rfl, unanswered⟩
      exact absent ((mem_values_iff _ ticket).mpr ⟨w.id, entry⟩)

theorem start_move {s : Socket} (sound : s.Sound) (room : s.nextTicket < UInt64.size) (call : Call)
    (options : CallOptions) (abortable : Bool) :
    Move s (.start call options abortable) (s.start call options abortable).1
      (s.start call options abortable).2.2 := by
  cases connected : s.connection.connected with
  | false =>
    simp only [start, connected]
    exact .refused connected
  | true =>
    have unsealed : ¬ s.connection.sealed = true := by simp [sound.sealed, connected]
    have alone : s.connection.abandon (s.encoder.encode call).1.id = [] := by
      have free := sound.next_free room
      simp [Connection.abandon, Rpc.Encoder.encode, free]
    simp only [start, if_pos connected, Connection.register, if_neg unsealed, alone, settle]
    exact .entered connected

theorem Connection.dispatch_eq (c : Connection) (text : String) :
    c.dispatch text = ((Rpc.Response.decode text).toOption.map c.answer).getD ([], c) := by
  unfold dispatch
  split <;> simp [*, Except.toOption]

theorem step_of_frame (s : Socket) {event : Event} (frame : event.isFrame = true) :
    s.step event = (.noted, [], s.settle
      ((event.response?.map s.connection.answer).getD ([], s.connection))) := by
  cases event with
  | text text => simp [step, Event.response?, Event.frame?, Connection.dispatch_eq]
  | binary bytes =>
    cases read : Utf8.decode? bytes <;>
      simp [step, Event.response?, Event.frame?, Connection.dispatchBytes, read,
        Connection.dispatch_eq]
  | _ => cases frame

/-- A frame for which nobody waits changes nothing. -/
theorem step_of_unlisted {s : Socket} {event : Event} (frame : event.isFrame = true)
    (unlisted : ∀ response id, event.response? = some response → response.id = some id →
      id ∉ s.connection.table) : s.step event = (.noted, [], s) := by
  rw [step_of_frame s frame]
  cases read : event.response? with
  | none => rfl
  | some response =>
    simp only [Option.map_some, Option.getD_some, Connection.answer]
    cases named : response.id with
    | none => rfl
    | some id =>
      simp only [ExtTreeMap.getElem?_eq_none (unlisted response id read named)]
      rfl

theorem frame_move (s : Socket) {event : Event} (frame : event.isFrame = true) :
    Move s event (s.step event).1 (s.step event).2.2 := by
  by_cases listed : ∃ response id, event.response? = some response ∧ response.id = some id ∧
      id ∈ s.connection.table
  · obtain ⟨response, id, read, named, membership⟩ := listed
    obtain ⟨ticket, entry⟩ := Option.isSome_iff_exists.mp
      (ExtTreeMap.isSome_getElem?_iff_mem.mpr membership)
    rw [step_of_frame s frame, read]
    simp only [Option.map_some, Option.getD_some, Connection.answer, named, entry]
    exact .answered read named entry
  · have unlisted : ∀ response id, event.response? = some response → response.id = some id →
        id ∉ s.connection.table := by
      intro response id read named membership
      exact listed ⟨response, id, read, named, membership⟩
    rw [step_of_unlisted frame unlisted]
    exact .ignored frame unlisted

theorem step_move {s : Socket} (sound : s.Sound) (room : s.nextTicket < UInt64.size) (event : Event) :
    Move s event (s.step event).1 (s.step event).2.2 := by
  cases event with
  | start call options abortable => exact start_move sound room call options abortable
  | text frame => exact frame_move s rfl
  | binary frame => exact frame_move s rfl
  | poll ticket expired =>
    simp only [step, poll]
    cases live : s.calls[ticket]? with
    | none => exact .pollUnknown live
    | some w =>
      cases look : w.look expired with
      | none =>
        simp only [look]
        exact .waiting live look
      | some reply =>
        simp only [look, sound.forget_eq live]
        exact .ended live look
  | abort ticket => exact .aborted
  | drop ticket =>
    simp only [step]
    cases live : s.calls[ticket]? with
    | none => exact .dropUnknown live
    | some w =>
      simp only [sound.forget_eq live]
      exact .dropped live
  | shutDown failure =>
    simp only [step]
    cases connected : s.connection.connected with
    | false =>
      simp only [Connection.shutDown, connected]
      exact .shutAgain connected
    | true =>
      rw [sound.shutDown_eq connected]
      exact .shutDown connected

/-! ### Every move leaves the socket sound -/

section Sound

variable {s : Socket}

theorem Sound.without (sound : s.Sound) {ticket : Nat} {w : Waiting}
    (live : s.calls[ticket]? = some w) : (s.without ticket w.id).Sound where
  numbered := by
    intro other w' live'
    simp only [Socket.without, ExtTreeMap.getElem?_erase, Std.compare_eq_iff_eq,
      Option.ite_none_left_eq_some] at live'
    exact sound.numbered other w' live'.2
  nextId := sound.nextId
  few := sound.few
  table := by
    intro id other
    simp only [Socket.without, ExtTreeMap.getElem?_erase, Std.compare_eq_iff_eq,
      Option.ite_none_left_eq_some, sound.table]
    constructor
    · rintro ⟨different, w', live', rfl, unanswered⟩
      refine ⟨w', ⟨?_, live'⟩, rfl, unanswered⟩
      rintro rfl
      cases live.symm.trans live'
      exact different rfl
    · rintro ⟨w', ⟨different, live'⟩, rfl, unanswered⟩
      refine ⟨?_, w', live', rfl, unanswered⟩
      intro same
      exact different (sound.ticket_eq live live' same)
  sealed := sound.sealed
  closed := by
    intro closed
    simp [Socket.without, sound.closed closed]

/-- Calls may change as long as they keep their ids and the table follows. -/
theorem Sound.changed (sound : s.Sound) {connection : Connection}
    {calls : ExtTreeMap Nat Waiting} (change : Nat → Waiting → Waiting)
    (sameId : ∀ ticket w, (change ticket w).id = w.id)
    (changed : ∀ ticket : Nat, calls[ticket]? = s.calls[ticket]?.map (change ticket))
    (table : ∀ (id : UInt64) (ticket : Nat), connection.table[id]? = some ticket ↔
      ∃ w, s.calls[ticket]? = some w ∧ w.id = id ∧ (change ticket w).answer = none)
    (sealed : connection.sealed = !connection.connected)
    (closed : connection.connected = false → connection.table = ∅) :
    { s with connection := connection, calls := calls }.Sound where
  numbered := by
    intro ticket w' live'
    rw [changed, Option.map_eq_some_iff] at live'
    obtain ⟨w, live, rfl⟩ := live'
    rw [sameId]
    exact sound.numbered ticket w live
  nextId := sound.nextId
  few := sound.few
  table := by
    intro id ticket
    rw [table]
    constructor
    · rintro ⟨w, live, rfl, unanswered⟩
      exact ⟨change ticket w, by simp [changed, live], sameId ticket w, unanswered⟩
    · rintro ⟨w', live', rfl, unanswered⟩
      rw [changed, Option.map_eq_some_iff] at live'
      obtain ⟨w, live, rfl⟩ := live'
      exact ⟨w, live, (sameId ticket w).symm, unanswered⟩
  sealed := sealed
  closed := closed

theorem Sound.answered (sound : s.Sound) {id : UInt64} {ticket : Nat}
    (entry : s.connection.table[id]? = some ticket) (reply : Reply) :
    (s.answered id ticket reply).Sound := by
  obtain ⟨w, live, rfl, unanswered⟩ := (sound.table id ticket).mp entry
  refine sound.changed (fun other w => if ticket = other then w.deliver reply else w)
    ?_ ?_ ?_ sound.sealed ?_
  · intro other w
    split <;> simp
  · intro other
    rw [getElem?_modify_calls]
    split <;> simp
  · intro id other
    simp only [ExtTreeMap.getElem?_erase, Std.compare_eq_iff_eq, Option.ite_none_left_eq_some,
      sound.table]
    constructor
    · rintro ⟨different, w', live', rfl, unanswered'⟩
      have elsewhere : ticket ≠ other := by
        rintro rfl
        cases live.symm.trans live'
        exact different rfl
      exact ⟨w', live', rfl, by rwa [if_neg elsewhere]⟩
    · rintro ⟨w', live', rfl, unanswered'⟩
      split at unanswered'
      · simp at unanswered'
      · next elsewhere =>
        refine ⟨?_, w', live', rfl, unanswered'⟩
        intro same
        exact elsewhere (sound.ticket_eq live live' same)
  · intro closed
    simp [sound.closed closed]

theorem Sound.entered (sound : s.Sound) (room : s.nextTicket < UInt64.size)
    (connected : s.connection.connected = true) (call : Call) (options : CallOptions)
    (abortable : Bool) : (s.entered call options abortable).Sound where
  numbered := by
    intro ticket w live
    simp only [Socket.entered, ExtTreeMap.getElem?_insert, Std.compare_eq_iff_eq] at live ⊢
    split at live
    · next same =>
      cases live
      subst same
      exact ⟨Nat.lt_succ_self _, sound.nextId⟩
    · obtain ⟨issued, id⟩ := sound.numbered ticket w live
      exact ⟨Nat.lt_succ_of_lt issued, id⟩
  nextId := by
    simp only [Socket.entered, Rpc.Encoder.advance, sound.nextId, idOf]
    rw [UInt64.ofNat_add (s.nextTicket + 1)]
    rfl
  few := room
  table := by
    intro id ticket
    simp only [Socket.entered, ExtTreeMap.getElem?_insert, Std.compare_eq_iff_eq]
    by_cases next : s.nextTicket = ticket
    · subst next
      have unlisted : s.connection.table[id]? ≠ some s.nextTicket := by
        intro entry
        obtain ⟨w, live, -⟩ := (sound.table _ _).mp entry
        cases sound.not_mem_next.symm.trans live
      simp [unlisted]
    · rw [if_neg next, ← sound.table]
      split
      · next same =>
        subst same
        simp [next, sound.next_free room]
      · rfl
  sealed := sound.sealed
  closed := by
    intro closed
    cases connected.symm.trans closed

theorem Sound.ended (sound : s.Sound) (failure : Option String) : (s.ended failure).Sound := by
  refine sound.changed (fun _ w => w.deliver (.error .connectionClosed)) ?_ ?_ ?_ rfl ?_
  · simp
  · simp
  · simp
  · simp

theorem Move.sound {next : Socket} {event : Event} {report : Report}
    (move : Move s event report next) (sound : s.Sound) (room : s.nextTicket < UInt64.size) :
    next.Sound := by
  cases move with
  | entered connected => exact sound.entered room connected _ _ _
  | answered read named entry => exact sound.answered entry _
  | ended live | dropped live => exact sound.without live
  | @aborted ticket =>
    refine sound.changed (fun other w =>
      if ticket = other then { w with aborted := w.aborted || w.abortable } else w)
      ?_ ?_ ?_ sound.sealed sound.closed
    · intro other w
      split <;> rfl
    · intro other
      rw [getElem?_modify_calls]
      split <;> simp
    · intro id other
      rw [sound.table]
      split <;> rfl
  | shutDown => exact sound.ended _
  | _ => exact sound

end Sound

/-! ### Runs -/

def after (s : Socket) (events : List Event) : Socket := (s.run events).2.2

theorem after_snoc (s : Socket) (events : List Event) (event : Event) :
    s.after (events ++ [event]) = ((s.after events).step event).2.2 := by
  induction events generalizing s with
  | nil => rfl
  | cons first rest ih => exact ih (s.step first).2.2

theorem Move.nextTicket_le {s next : Socket} {event : Event} {report : Report}
    (move : Move s event report next) :
    next.nextTicket ≤ s.nextTicket + if event.isStart then 1 else 0 := by
  cases move with
  | entered => exact Nat.le_refl _
  | _ => exact Nat.le_add_right _ _

/-- A run stays sound until it has started as many calls as there are ids. -/
theorem sound_after (debug : Bool) (timeout : Option Duration) (events : List Event)
    (few : events.countP Event.isStart < UInt64.size) :
    ((new debug timeout).after events).Sound ∧
      ((new debug timeout).after events).nextTicket ≤ events.countP Event.isStart := by
  induction events using List.reverseRecOn with
  | nil => exact ⟨sound_new debug timeout, Nat.le_refl 0⟩
  | append_singleton events event ih =>
    rw [List.countP_append, List.countP_singleton] at few ⊢
    obtain ⟨sound, issued⟩ := ih (by omega)
    have move := step_move sound (by omega) event
    rw [after_snoc]
    exact ⟨move.sound sound (by omega), Nat.le_trans move.nextTicket_le (by omega)⟩

end Countersign.Socket
