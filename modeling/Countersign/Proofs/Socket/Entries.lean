import Countersign.Proofs.Socket.Shutdown

set_option autoImplicit false

/-!
# Entries are of calls that wait

Whatever is in the table is the entry of a call that is there, has no answer yet, and has
the id of the entry. This holds for ever: also after the ids have started over, when a call
gives way to a later one with the same id.
-/

namespace Countersign.Socket

open Std

structure Listed (s : Socket) : Prop where
  issued : ∀ ticket ∈ s.calls, ticket < s.nextTicket
  waits : ∀ (id : UInt64) (ticket : Nat), s.connection.table[id]? = some ticket →
    ∃ w, s.calls[ticket]? = some w ∧ w.id = id ∧ w.answer = none

theorem listed_new (debug : Bool) (timeout : Option Duration) : (new debug timeout).Listed where
  issued := by simp [new]
  waits := by simp [new, Connection.new]

/-- A call to which nothing is delivered stays as it is. -/
theorem calls_settle_of_spared {s : Socket} {result : List Delivery × Connection} {ticket : Nat}
    (spared : ∀ d ∈ result.1, d.ticket ≠ ticket) :
    (s.settle result).calls[ticket]? = s.calls[ticket]? := by
  have nothing : result.1.filter (·.ticket == ticket) = [] := by
    simpa [List.filter_eq_nil_iff] using spared
  rw [settle, getElem?_foldl_deliver, nothing]
  simp

section Listed

variable {s : Socket}

theorem Listed.id_unique (listed : s.Listed) {first second : UInt64} {ticket : Nat}
    (entry : s.connection.table[first]? = some ticket)
    (entry' : s.connection.table[second]? = some ticket) : first = second := by
  obtain ⟨w, live, rfl, -⟩ := listed.waits first ticket entry
  obtain ⟨w', live', rfl, -⟩ := listed.waits second ticket entry'
  cases live.symm.trans live'
  rfl

/-- What is delivered when an id leaves the table is for no other entry. -/
theorem Listed.spared (listed : s.Listed) {id other : UInt64} {ticket : Nat}
    (different : other ≠ id) (entry : s.connection.table[other]? = some ticket) :
    ∀ d ∈ s.connection.abandon id, d.ticket ≠ ticket := by
  intro d among
  simp only [Connection.abandon, List.mem_map, Option.mem_toList] at among
  obtain ⟨gone, held, rfl⟩ := among
  rintro rfl
  exact different (listed.id_unique entry held)

theorem Listed.settles (listed : s.Listed) {result : List Delivery × Connection}
    (settles : s.connection.Settles result) : (s.settle result).Listed where
  issued := by
    intro ticket there
    rw [settle_nextTicket]
    exact listed.issued ticket ((mem_calls_settle s result ticket).mp there)
  waits := by
    intro id ticket entry
    rw [settle_connection] at entry
    cases settles with
    | nothing => exact listed.waits id ticket entry
    | @one gone held reply taken =>
      rw [ExtTreeMap.getElem?_erase, Option.ite_none_left_eq_some] at entry
      rw [calls_settle_of_spared]
      · exact listed.waits id ticket entry.2
      · intro d among
        cases List.mem_singleton.mp among
        rintro rfl
        exact entry.1 (Std.compare_eq_iff_eq.mpr (listed.id_unique taken entry.2))

theorem Listed.forget (listed : s.Listed) {ticket : Nat} {w : Waiting}
    (live : s.calls[ticket]? = some w) : (s.forget ticket w.id).Listed where
  issued := by
    intro other there
    rw [Socket.forget, settle_nextTicket]
    exact listed.issued other ((mem_calls_forget s ticket w.id other).mp there).2
  waits := by
    intro id other entry
    rw [Socket.forget, settle_connection, Connection.release, ExtTreeMap.getElem?_erase,
      Option.ite_none_left_eq_some, Std.compare_eq_iff_eq] at entry
    obtain ⟨w', live', rfl, unanswered⟩ := listed.waits id other entry.2
    refine ⟨w', ?_, rfl, unanswered⟩
    rw [Socket.forget, calls_settle_of_spared (listed.spared (Ne.symm entry.1) entry.2),
      ExtTreeMap.getElem?_erase, if_neg, live']
    -- the entry of the call that goes has gone with it
    rw [Std.compare_eq_iff_eq]
    rintro rfl
    cases live.symm.trans live'
    exact entry.1 rfl

theorem Listed.start (listed : s.Listed) (call : Call) (options : CallOptions)
    (abortable : Bool) : (s.start call options abortable).2.2.Listed := by
  cases connected : s.connection.connected with
  | false =>
    simp only [Socket.start, connected]
    exact listed
  | true =>
    cases locked : s.connection.sealed with
    | true =>
      simp only [Socket.start, connected, if_true, Rpc.Encoder.encode, Connection.register, locked]
      exact ⟨fun ticket there => Nat.lt_succ_of_lt (listed.issued ticket there), listed.waits⟩
    | false =>
      simp only [Socket.start, connected, if_true, Rpc.Encoder.encode, Connection.register, locked,
        Bool.false_eq_true, if_false]
      refine ⟨?_, ?_⟩
      · intro ticket there
        rw [ExtTreeMap.mem_insert, mem_calls_settle, Std.compare_eq_iff_eq] at there
        rw [settle_nextTicket]
        rcases there with rfl | there
        · exact Nat.lt_succ_self _
        · exact Nat.lt_succ_of_lt (listed.issued ticket there)
      · intro id ticket entry
        simp only [settle_connection, ExtTreeMap.getElem?_insert, Std.compare_eq_iff_eq] at entry ⊢
        split at entry
        · next same =>
          cases entry
          rw [if_pos rfl]
          exact ⟨_, rfl, same, rfl⟩
        · next different =>
          obtain ⟨w, live, rfl, unanswered⟩ := listed.waits id ticket entry
          have earlier := listed.issued ticket (mem_iff_getElem?.mpr ⟨w, live⟩)
          rw [if_neg (by omega), calls_settle_of_spared (listed.spared (Ne.symm different) entry)]
          exact ⟨w, live, rfl, unanswered⟩

theorem Listed.shutDown (listed : s.Listed) (failure : Option String) :
    (s.settle (s.connection.shutDown failure)).Listed where
  issued := by
    intro ticket there
    rw [settle_nextTicket]
    exact listed.issued ticket ((mem_calls_settle s _ ticket).mp there)
  waits := by
    intro id ticket entry
    rw [settle_connection] at entry
    unfold Connection.shutDown at entry ⊢
    split at entry
    · simp at entry
    · next closed =>
      rw [if_neg closed]
      exact listed.waits id ticket entry

theorem Listed.step (listed : s.Listed) (event : Event) : (s.step event).2.2.Listed := by
  cases event with
  | start call options abortable => exact listed.start call options abortable
  | text frame => exact listed.settles (s.connection.dispatch_settles frame)
  | binary frame => exact listed.settles (s.connection.dispatchBytes_settles frame)
  | poll ticket expired =>
    simp only [Socket.step, poll]
    cases live : s.calls[ticket]? with
    | none => exact listed
    | some w =>
      cases look : w.look expired with
      | none =>
        simp only [look]
        exact listed
      | some reply =>
        simp only [look]
        exact listed.forget live
  | abort ticket =>
    refine ⟨?_, ?_⟩
    · intro other there
      exact listed.issued other (ExtTreeMap.mem_modify.mp there)
    · intro id other entry
      obtain ⟨w, live, rfl, unanswered⟩ := listed.waits id other entry
      simp only [Socket.step, getElem?_modify_calls, live, Option.map_some]
      split
      · exact ⟨_, rfl, rfl, unanswered⟩
      · exact ⟨w, rfl, rfl, unanswered⟩
  | drop ticket =>
    simp only [Socket.step]
    cases live : s.calls[ticket]? with
    | none => exact listed
    | some w => exact listed.forget live
  | shutDown failure => exact listed.shutDown failure

end Listed

theorem listed_after (debug : Bool) (timeout : Option Duration) (events : List Event) :
    ((new debug timeout).after events).Listed := by
  induction events using List.reverseRecOn with
  | nil => exact listed_new debug timeout
  | append_singleton events event ih =>
    rw [after_snoc]
    exact ih.step event

end Countersign.Socket
