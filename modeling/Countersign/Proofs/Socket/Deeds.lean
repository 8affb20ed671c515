import Countersign.Proofs.Socket.Moves

set_option autoImplicit false

/-!
# Deeds on a connection

Several sides act on one connection: calls enter its table and leave it, frames come in,
and whoever notices the end shuts it down. A call that has entered is in the table or has
been sent exactly one reply, whatever ids the calls have. The first shut-down empties the
table for good, and nothing that is done later has any effect.
-/

namespace Countersign.Socket

open Std

inductive Deed where
  | register (id : UInt64)
  | text (frame : String)
  | binary (frame : List UInt8)
  | release (id : UInt64)
  | shutDown (failure : Option String)

def Deed.isShutDown : Deed → Bool
  | .shutDown _ => true
  | _ => false

/-- A connection with how many calls have entered, which are numbered in this order, and
all that was sent to them. -/
structure Line where
  connection : Connection
  entered : Nat
  sent : List Delivery

namespace Line

def new : Line := ⟨.new, 0, []⟩

def take (l : Line) (result : List Delivery × Connection) : Line :=
  ⟨result.2, l.entered, l.sent ++ result.1⟩

def perform (l : Line) : Deed → Line
  | .register id =>
    match l.connection.register id l.entered with
    | .error _ => l
    | .ok result => { l.take result with entered := l.entered + 1 }
  | .text frame => l.take (l.connection.dispatch frame)
  | .binary frame => l.take (l.connection.dispatchBytes frame)
  | .release id => l.take (l.connection.release id)
  | .shutDown failure => l.take (l.connection.shutDown failure)

def performAll (l : Line) (deeds : List Deed) : Line := deeds.foldl perform l

def repliesTo (l : Line) (ticket : Nat) : List Reply :=
  (l.sent.filter (·.ticket == ticket)).map (·.reply)

theorem performAll_append (l : Line) (first second : List Deed) :
    l.performAll (first ++ second) = (l.performAll first).performAll second :=
  List.foldl_append

theorem repliesTo_take (l : Line) (result : List Delivery × Connection) (ticket : Nat) :
    (l.take result).repliesTo ticket =
      l.repliesTo ticket ++ (result.1.filter (·.ticket == ticket)).map (·.reply) := by
  simp [repliesTo, take]

end Line

/-! ### What a deed does to a connection -/

namespace Connection

/-- Nothing happens, or one entry leaves the table and its call is sent a reply. -/
inductive Settles (c : Connection) : List Delivery × Connection → Prop where
  | nothing : Settles c ([], c)
  | one {id : UInt64} {ticket : Nat} {reply : Reply} : c.table[id]? = some ticket →
      Settles c ([⟨ticket, reply⟩], { c with table := c.table.erase id })

theorem answer_settles (c : Connection) (response : Rpc.Response) :
    c.Settles (c.answer response) := by
  unfold answer
  cases response.id with
  | none => exact .nothing
  | some id =>
    cases entry : c.table[id]? with
    | none =>
      simp only [entry]
      exact .nothing
    | some ticket =>
      simp only [entry]
      exact .one entry

theorem dispatch_settles (c : Connection) (frame : String) : c.Settles (c.dispatch frame) := by
  unfold dispatch
  split
  · exact .nothing
  · exact c.answer_settles _

theorem dispatchBytes_settles (c : Connection) (frame : List UInt8) :
    c.Settles (c.dispatchBytes frame) := by
  unfold dispatchBytes
  split
  · exact .nothing
  · exact c.dispatch_settles _

theorem release_settles (c : Connection) (id : UInt64) : c.Settles (c.release id) := by
  unfold release abandon
  cases entry : c.table[id]? with
  | some ticket => exact .one entry
  | none =>
    have same : c.table.erase id = c.table := by
      apply ExtTreeMap.ext_getElem?
      intro other
      rw [ExtTreeMap.getElem?_erase]
      split
      · next equal => rw [← Std.compare_eq_iff_eq.mp equal, entry]
      · rfl
    rw [same]
    exact .nothing

/-- A call enters where the one that waited under its id has been released. -/
theorem register_of_unsealed {c : Connection} (unsealed : c.sealed = false) (id : UInt64)
    (ticket : Nat) :
    c.register id ticket =
      .ok ((c.release id).1,
        { c with table := (c.release id).2.table.insert id ticket }) := by
  have replaced : (c.table.erase id).insert id ticket = c.table.insert id ticket := by
    apply ExtTreeMap.ext_getElem?
    intro other
    simp only [ExtTreeMap.getElem?_insert, ExtTreeMap.getElem?_erase]
    split <;> rfl
  simp [register, unsealed, release, replaced]

end Connection

/-! ### Every call is accounted for -/

namespace Line

/-- A call that has entered is in the table and has been sent nothing, or it is not there
and has been sent one reply. -/
structure Accounted (l : Line) : Prop where
  sealed : l.connection.sealed = !l.connection.connected
  distinct : ∀ (first second : UInt64) (ticket : Nat),
    l.connection.table[first]? = some ticket → l.connection.table[second]? = some ticket →
      first = second
  issued : ∀ (id : UInt64) (ticket : Nat),
    l.connection.table[id]? = some ticket → ticket < l.entered
  waiting : ∀ (id : UInt64) (ticket : Nat),
    l.connection.table[id]? = some ticket → l.repliesTo ticket = []
  answered : ∀ ticket < l.entered, (∀ id : UInt64, l.connection.table[id]? ≠ some ticket) →
    ∃ reply, l.repliesTo ticket = [reply]
  unissued : ∀ ticket, l.entered ≤ ticket → l.repliesTo ticket = []

theorem accounted_new : new.Accounted where
  sealed := rfl
  distinct := by simp [new, Connection.new]
  issued := by simp [new, Connection.new]
  waiting := by simp [new, Connection.new]
  answered := by simp [new]
  unissued := by simp [new, repliesTo]

section Accounted

variable {l : Line}

theorem Accounted.settled (accounted : l.Accounted) {id : UInt64} {ticket : Nat}
    (entry : l.connection.table[id]? = some ticket) (reply : Reply) :
    (l.take ([⟨ticket, reply⟩],
      { l.connection with table := l.connection.table.erase id })).Accounted := by
  have erased : ∀ (other : UInt64) (owner : Nat),
      (l.connection.table.erase id)[other]? = some owner ↔
        id ≠ other ∧ l.connection.table[other]? = some owner := by
    simp [ExtTreeMap.getElem?_erase]
  have replies : ∀ owner, (l.take ([⟨ticket, reply⟩],
      { l.connection with table := l.connection.table.erase id })).repliesTo owner =
        l.repliesTo owner ++ if ticket = owner then [reply] else [] := by
    intro owner
    rw [repliesTo_take]
    by_cases same : ticket = owner <;> simp [same]
  refine ⟨accounted.sealed, ?_, ?_, ?_, ?_, ?_⟩
  · intro first second owner atFirst atSecond
    exact accounted.distinct first second owner ((erased _ _).mp atFirst).2
      ((erased _ _).mp atSecond).2
  · intro other owner found
    exact accounted.issued other owner ((erased _ _).mp found).2
  · intro other owner found
    obtain ⟨different, found⟩ := (erased _ _).mp found
    have elsewhere : ticket ≠ owner := by
      rintro rfl
      exact different (accounted.distinct id other ticket entry found)
    rw [replies, if_neg elsewhere, accounted.waiting other owner found, List.append_nil]
  · intro owner issued gone
    rw [replies]
    by_cases same : ticket = owner
    · subst same
      exact ⟨reply, by simp [accounted.waiting id ticket entry]⟩
    · obtain ⟨first, sent⟩ := accounted.answered owner issued (by
        intro other found
        refine gone other ((erased _ _).mpr ⟨?_, found⟩)
        rintro rfl
        exact same (Option.some.inj (entry.symm.trans found)))
      exact ⟨first, by simp [sent, same]⟩
  · intro owner unissued
    have elsewhere : ticket ≠ owner := by
      have := accounted.issued id ticket entry
      have : l.entered ≤ owner := unissued
      omega
    rw [replies, if_neg elsewhere, accounted.unissued owner unissued, List.append_nil]

theorem Accounted.take (accounted : l.Accounted) {result : List Delivery × Connection}
    (settles : l.connection.Settles result) : (l.take result).Accounted := by
  cases settles with
  | nothing =>
    have same : l.take ([], l.connection) = l := by simp [Line.take]
    rw [same]
    exact accounted
  | one entry => exact accounted.settled entry _

/-- A call enters under an id that is free. -/
theorem Accounted.enter (accounted : l.Accounted) {id : UInt64}
    (free : l.connection.table[id]? = none) :
    (⟨{ l.connection with table := l.connection.table.insert id l.entered }, l.entered + 1,
      l.sent⟩ : Line).Accounted := by
  have inserted : ∀ (other : UInt64) (owner : Nat),
      (l.connection.table.insert id l.entered)[other]? = some owner ↔
        id = other ∧ l.entered = owner ∨ l.connection.table[other]? = some owner := by
    intro other owner
    rw [ExtTreeMap.getElem?_insert]
    by_cases same : id = other
    · subst same
      simp [free]
    · simp [same]
  have new : ∀ other : UInt64, l.connection.table[other]? ≠ some l.entered := by
    intro other found
    exact Nat.lt_irrefl _ (accounted.issued other _ found)
  refine ⟨accounted.sealed, ?_, ?_, ?_, ?_, ?_⟩
  · intro first second owner atFirst atSecond
    rcases (inserted _ _).mp atFirst with ⟨rfl, rfl⟩ | old
    · rcases (inserted _ _).mp atSecond with ⟨rfl, -⟩ | old
      · rfl
      · exact absurd old (new second)
    · rcases (inserted _ _).mp atSecond with ⟨rfl, rfl⟩ | old'
      · exact absurd old (new first)
      · exact accounted.distinct first second owner old old'
  · intro other owner found
    rcases (inserted _ _).mp found with ⟨-, rfl⟩ | old
    · exact Nat.lt_succ_self _
    · exact Nat.lt_succ_of_lt (accounted.issued other owner old)
  · intro other owner found
    rcases (inserted _ _).mp found with ⟨-, rfl⟩ | old
    · exact accounted.unissued l.entered (Nat.le_refl _)
    · exact accounted.waiting other owner old
  · intro owner issued gone
    have earlier : owner < l.entered := by
      refine Nat.lt_of_le_of_ne (Nat.le_of_lt_succ issued) ?_
      rintro rfl
      exact gone id ((inserted _ _).mpr (.inl ⟨rfl, rfl⟩))
    refine accounted.answered owner earlier ?_
    intro other found
    exact gone other ((inserted _ _).mpr (.inr found))
  · intro owner unissued
    exact accounted.unissued owner (Nat.le_of_succ_le unissued)

theorem Accounted.values_nodup (accounted : l.Accounted) : l.connection.table.values.Nodup :=
  nodup_values accounted.distinct

/-- When a table is emptied, each call that is in it is sent one reply. -/
theorem Accounted.repliesTo_closed (accounted : l.Accounted) (reply : Reply) (c : Connection)
    (ticket : Nat) :
    (l.take (l.connection.table.values.map (⟨·, reply⟩), c)).repliesTo ticket =
      l.repliesTo ticket ++ if ticket ∈ l.connection.table.values then [reply] else [] := by
  rw [repliesTo_take, List.filter_map, List.map_map]
  have once : l.connection.table.values.filter (· == ticket) =
      if ticket ∈ l.connection.table.values then [ticket] else [] := by
    rw [List.filter_beq, accounted.values_nodup.count]
    split <;> rfl
  have same : ((fun d : Delivery => d.ticket == ticket) ∘ fun owner => ⟨owner, reply⟩) =
      (· == ticket) := rfl
  rw [same, once]
  split <;> rfl

theorem Accounted.shutDown (accounted : l.Accounted)
    (connected : l.connection.connected = true) (failure : Option String) :
    (l.take (l.connection.shutDown failure)).Accounted := by
  rw [Connection.shutDown, if_pos connected]
  have replies := accounted.repliesTo_closed (.error .connectionClosed)
    ⟨false, true, ∅, l.connection.signals ++ failure.toList.map .failed ++ [.closed]⟩
  refine ⟨rfl, by simp [Line.take], by simp [Line.take], by simp [Line.take], ?_, ?_⟩
  · intro ticket issued gone
    rw [replies]
    by_cases listed : ticket ∈ l.connection.table.values
    · obtain ⟨id, entry⟩ := (mem_values_iff _ ticket).mp listed
      exact ⟨.error .connectionClosed, by simp [accounted.waiting id ticket entry, listed]⟩
    · obtain ⟨reply, sent⟩ := accounted.answered ticket issued (by
        intro id entry
        exact listed ((mem_values_iff _ ticket).mpr ⟨id, entry⟩))
      exact ⟨reply, by simp [sent, listed]⟩
  · intro ticket unissued
    have unlisted : ticket ∉ l.connection.table.values := by
      intro listed
      obtain ⟨id, entry⟩ := (mem_values_iff _ ticket).mp listed
      have := accounted.issued id ticket entry
      have : l.entered ≤ ticket := unissued
      omega
    rw [replies, if_neg unlisted, accounted.unissued ticket unissued, List.append_nil]

theorem Accounted.register (accounted : l.Accounted) (id : UInt64) :
    (l.perform (.register id)).Accounted := by
  cases sealed : l.connection.sealed with
  | true =>
    simp only [perform, Connection.register, sealed, if_true]
    exact accounted
  | false =>
    have released := accounted.take (l.connection.release_settles id)
    have free : (l.take (l.connection.release id)).connection.table[id]? = none := by
      simp [Line.take, Connection.release]
    simp only [perform, Connection.register_of_unsealed sealed]
    exact released.enter free

theorem Accounted.perform (accounted : l.Accounted) (deed : Deed) : (l.perform deed).Accounted := by
  cases deed with
  | register id => exact accounted.register id
  | text frame => exact accounted.take (l.connection.dispatch_settles frame)
  | binary frame => exact accounted.take (l.connection.dispatchBytes_settles frame)
  | release id => exact accounted.take (l.connection.release_settles id)
  | shutDown failure =>
    cases connected : l.connection.connected with
    | true => exact accounted.shutDown connected failure
    | false =>
      have again : l.connection.shutDown failure = ([], l.connection) := by
        simp [Connection.shutDown, connected]
      simp only [Line.perform, again]
      exact accounted.take .nothing

theorem Accounted.performAll (accounted : l.Accounted) (deeds : List Deed) :
    (l.performAll deeds).Accounted := by
  induction deeds generalizing l with
  | nil => exact accounted
  | cons deed rest ih => exact ih (accounted.perform deed)

end Accounted

/-! ### Before and after the first shut-down -/

/-- All deeds but a shut-down leave everything as it is but the table. -/
theorem perform_connection (l : Line) {deed : Deed} (other : deed.isShutDown = false) :
    (l.perform deed).connection =
      { l.connection with table := (l.perform deed).connection.table } := by
  have settles : ∀ result, l.connection.Settles result →
      (l.take result).connection =
        { l.connection with table := (l.take result).connection.table } := by
    intro result settles
    cases settles <;> rfl
  cases deed with
  | register id =>
    cases sealed : l.connection.sealed with
    | true =>
      have refused : l.perform (.register id) = l := by simp [perform, Connection.register, sealed]
      rw [refused]
    | false => simp [perform, Connection.register_of_unsealed sealed, take]
  | text frame => exact settles _ (l.connection.dispatch_settles frame)
  | binary frame => exact settles _ (l.connection.dispatchBytes_settles frame)
  | release id => exact settles _ (l.connection.release_settles id)
  | shutDown failure => cases other

theorem performAll_connection (l : Line) {deeds : List Deed}
    (others : ∀ deed ∈ deeds, deed.isShutDown = false) :
    (l.performAll deeds).connection =
      { l.connection with table := (l.performAll deeds).connection.table } := by
  induction deeds generalizing l with
  | nil => rfl
  | cons deed rest ih =>
    have first := l.perform_connection (others deed List.mem_cons_self)
    have later := ih (l.perform deed) fun deed membership =>
      others deed (List.mem_cons_of_mem _ membership)
    calc (l.performAll (deed :: rest)).connection
        = { (l.perform deed).connection with
            table := (l.performAll (deed :: rest)).connection.table } := later
      _ = { l.connection with table := (l.performAll (deed :: rest)).connection.table } := by
          rw [first]

/-- Nothing that is done to a connection that has ended has any effect. -/
theorem perform_of_ended {l : Line} {signals : List Signal}
    (ended : l.connection = ⟨false, true, ∅, signals⟩) (deed : Deed) : l.perform deed = l := by
  have settles : ∀ result, l.connection.Settles result → l.take result = l := by
    intro result settles
    cases settles with
    | nothing => simp [take]
    | one entry => simp [ended] at entry
  cases deed with
  | register id => simp [perform, Connection.register, ended]
  | text frame => exact settles _ (l.connection.dispatch_settles frame)
  | binary frame => exact settles _ (l.connection.dispatchBytes_settles frame)
  | release id => exact settles _ (l.connection.release_settles id)
  | shutDown failure =>
    have again : l.connection.shutDown failure = ([], l.connection) := by
      simp [Connection.shutDown, ended]
    rw [perform, again]
    exact settles _ .nothing

theorem performAll_of_ended {l : Line} {signals : List Signal}
    (ended : l.connection = ⟨false, true, ∅, signals⟩) (deeds : List Deed) :
    l.performAll deeds = l := by
  induction deeds with
  | nil => rfl
  | cons deed rest ih => rw [performAll, List.foldl_cons, perform_of_ended ended, ← performAll, ih]

/-- The flag goes down first in a shut-down, and others may act before the table is closed. -/
def lower (l : Line) : Line :=
  { l with connection := { l.connection with connected := false } }

def close (l : Line) (failure : Option String) : Line :=
  l.take ({ l.connection with connected := true }.shutDown failure)

/-- Only a shut-down looks at the flag. -/
theorem perform_lower (l : Line) {deed : Deed} (other : deed.isShutDown = false) :
    l.lower.perform deed = (l.perform deed).lower := by
  have answer : ∀ response, l.lower.take (l.lower.connection.answer response) =
      (l.take (l.connection.answer response)).lower := by
    intro response
    unfold Connection.answer
    cases response.id with
    | none => rfl
    | some id => cases entry : l.connection.table[id]? <;> simp [lower, take, entry]
  have dispatch : ∀ frame, l.lower.take (l.lower.connection.dispatch frame) =
      (l.take (l.connection.dispatch frame)).lower := by
    intro frame
    unfold Connection.dispatch
    cases Rpc.Response.decode frame with
    | error e => rfl
    | ok response => exact answer response
  cases deed with
  | register id =>
    cases sealed : l.connection.sealed <;>
      simp [perform, lower, Connection.register, sealed, take, Connection.abandon]
  | text frame => exact dispatch frame
  | binary frame =>
    simp only [perform, Connection.dispatchBytes]
    cases Utf8.decode? frame with
    | none => rfl
    | some text => exact dispatch text
  | release id => rfl
  | shutDown failure => cases other

theorem performAll_lower (l : Line) (deeds : List Deed) :
    l.lower.performAll deeds = (l.performAll (deeds.filter (!·.isShutDown))).lower := by
  induction deeds generalizing l with
  | nil => rfl
  | cons deed rest ih =>
    cases kind : deed.isShutDown with
    | false =>
      rw [List.filter_cons_of_pos (by simp [kind])]
      calc l.lower.performAll (deed :: rest)
          = (l.perform deed).lower.performAll rest := by
            rw [← l.perform_lower kind]
            rfl
        _ = _ := ih (l.perform deed)
    | true =>
      have again : l.lower.perform deed = l.lower := by
        cases deed with
        | shutDown failure => simp [perform, lower, take, Connection.shutDown]
        | _ => cases kind
      rw [List.filter_cons_of_neg (by simp [kind]), ← ih l, performAll, List.foldl_cons, again]
      rfl

theorem close_lower {l : Line} (connected : l.connection.connected = true)
    (failure : Option String) : l.lower.close failure = l.perform (.shutDown failure) := by
  have raised : { l.lower.connection with connected := true } = l.connection := by
    rw [← connected]
    rfl
  rw [close, raised]
  rfl

end Line

end Countersign.Socket
