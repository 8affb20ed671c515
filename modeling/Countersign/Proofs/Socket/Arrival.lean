import Countersign.Proofs.Socket.Correlation
import Countersign.Proofs.Socket.Entries
import Mathlib.Data.List.Nodup

set_option autoImplicit false

/-!
# Answers may come in any order

A frame takes the id that it names off the table, and the call that waited there is sent
what the frame says. As long as no id is named twice, no frame gets in the way of another:
what each call is sent, and what is left of the table, is the same in whichever order the
frames come. Frames that cannot be read or name no id do nothing anywhere.
-/

namespace Countersign.Socket

open Std

inductive Frame where
  | text (frame : String)
  | binary (frame : List UInt8)

namespace Frame

def deed : Frame → Deed
  | .text frame => .text frame
  | .binary frame => .binary frame

def event : Frame → Event
  | .text frame => .text frame
  | .binary frame => .binary frame

def id? (frame : Frame) : Option UInt64 := frame.event.response?.bind (·.id)

theorem isFrame_event (frame : Frame) : frame.event.isFrame = true := by
  cases frame <;> rfl

theorem isShutDown_deed (frames : List Frame) :
    ∀ d ∈ frames.map deed, d.isShutDown = false := by
  intro d membership
  obtain ⟨frame, -, rfl⟩ := List.mem_map.mp membership
  cases frame <;> rfl

/-- Only a frame that names an id has something to say to the call with that id. -/
theorem word?_event (frame : Frame) (id : UInt64) :
    frame.event.word? id = frame.event.response?.bind fun response =>
      if response.id = some id then some response.reply else none := by
  cases frame <;> rfl

theorem isSome_word? (frame : Frame) (id : UInt64) :
    (frame.event.word? id).isSome = (frame.id? == some id) := by
  rw [word?_event, id?]
  cases frame.event.response? with
  | none => rfl
  | some response => by_cases named : response.id = some id <;> simp [named]

end Frame

def Connection.delivery? (c : Connection) (frame : Frame) : Option Delivery :=
  frame.event.response?.bind fun response => response.id.bind fun id =>
    c.table[id]?.map fun ticket => ⟨ticket, response.reply⟩

theorem Connection.delivery?_congr {c c' : Connection} {frame : Frame}
    (same : ∀ id, frame.id? = some id → c.table[id]? = c'.table[id]?) :
    c.delivery? frame = c'.delivery? frame := by
  unfold delivery?
  cases read : frame.event.response? with
  | none => rfl
  | some response =>
    cases named : response.id with
    | none => simp [named]
    | some id => simp [named, same id (by simp [Frame.id?, read, named])]

/-- A frame says the same to a call, whether it is asked for the id or for the ticket. -/
theorem Connection.delivery?_filter {c : Connection} {id : UInt64} {ticket : Nat}
    (entry : c.table[id]? = some ticket)
    (alone : ∀ other : UInt64, c.table[other]? = some ticket → other = id) (frame : Frame) :
    ((c.delivery? frame).filter (·.ticket == ticket)).map (·.reply) = frame.event.word? id := by
  rw [Frame.word?_event, delivery?]
  cases frame.event.response? with
  | none => rfl
  | some response =>
    cases named : response.id with
    | none => simp [named]
    | some other =>
      by_cases same : other = id
      · simp [named, same, entry]
      · have elsewhere : c.table[other]? ≠ some ticket := fun found => same (alone other found)
        cases found : c.table[other]? with
        | none => simp [named, same, found]
        | some owner =>
          have different : owner ≠ ticket := by
            rintro rfl
            exact elsewhere found
          simp [named, same, found, different]

namespace Line

theorem perform_frame (l : Line) (frame : Frame) :
    l.perform frame.deed = l.take
      ((frame.event.response?.map l.connection.answer).getD ([], l.connection)) := by
  cases frame with
  | text text =>
    simp [Frame.deed, Frame.event, perform, Event.response?, Event.frame?, Connection.dispatch_eq]
  | binary bytes =>
    cases read : Utf8.decode? bytes <;>
      simp [Frame.deed, Frame.event, perform, Event.response?, Event.frame?,
        Connection.dispatchBytes, read, Connection.dispatch_eq]

theorem sent_perform_frame (l : Line) (frame : Frame) :
    (l.perform frame.deed).sent = l.sent ++ (l.connection.delivery? frame).toList := by
  rw [perform_frame, Connection.delivery?]
  cases frame.event.response? with
  | none => rfl
  | some response =>
    cases named : response.id with
    | none => simp [Connection.answer, named, take]
    | some id =>
      cases found : l.connection.table[id]? <;> simp [Connection.answer, named, found, take]

theorem table_perform_frame (l : Line) (frame : Frame) (id : UInt64) :
    (l.perform frame.deed).connection.table[id]? =
      if frame.id? = some id then none else l.connection.table[id]? := by
  rw [perform_frame, Frame.id?]
  cases frame.event.response? with
  | none => rfl
  | some response =>
    cases named : response.id with
    | none => simp [Connection.answer, named, take]
    | some other =>
      cases found : l.connection.table[other]? with
      | none =>
        have ignored : l.connection.answer response = ([], l.connection) := by
          simp only [Connection.answer, named, found]
        by_cases same : other = id
        · subst same
          simp [ignored, take, named, found]
        · simp [ignored, take, named, same]
      | some ticket =>
        simp [Connection.answer, named, found, take, ExtTreeMap.getElem?_erase]

/-! ### Many frames -/

/-- Whatever is named goes off the table. -/
theorem table_performAll_frames (l : Line) (frames : List Frame) (id : UInt64) :
    (l.performAll (frames.map Frame.deed)).connection.table[id]? =
      if id ∈ frames.filterMap Frame.id? then none else l.connection.table[id]? := by
  induction frames generalizing l with
  | nil => simp [performAll]
  | cons frame rest ih =>
    rw [List.map_cons, performAll, List.foldl_cons, ← performAll, ih, table_perform_frame]
    cases named : frame.id? with
    | none => simp [List.filterMap_cons_none named]
    | some other =>
      rw [List.filterMap_cons_some named]
      by_cases later : id ∈ rest.filterMap Frame.id?
      · simp [later]
      · by_cases here : other = id <;> simp [later, here, eq_comm]

/-- If no id is named twice, every frame finds the table as it was at first. -/
theorem sent_performAll_frames (l : Line) {frames : List Frame}
    (distinct : (frames.filterMap Frame.id?).Nodup) :
    (l.performAll (frames.map Frame.deed)).sent =
      l.sent ++ frames.filterMap l.connection.delivery? := by
  induction frames generalizing l with
  | nil => simp [performAll]
  | cons frame rest ih =>
    have restDistinct : (rest.filterMap Frame.id?).Nodup :=
      distinct.sublist ((List.sublist_cons_self frame rest).filterMap _)
    have undisturbed : rest.filterMap (l.perform frame.deed).connection.delivery? =
        rest.filterMap l.connection.delivery? := by
      apply List.filterMap_congr
      intro later membership
      apply Connection.delivery?_congr
      intro id named
      rw [table_perform_frame, if_neg]
      intro namedFirst
      rw [List.filterMap_cons_some namedFirst, List.nodup_cons] at distinct
      exact distinct.1 (List.mem_filterMap.mpr ⟨later, membership, named⟩)
    rw [List.map_cons, performAll, List.foldl_cons, ← performAll, ih _ restDistinct,
      sent_perform_frame, undisturbed, List.append_assoc]
    cases sends : l.connection.delivery? frame with
    | none => simp [List.filterMap_cons_none sends]
    | some delivery => simp [List.filterMap_cons_some sends]

theorem repliesTo_performAll_frames (l : Line) {frames : List Frame}
    (distinct : (frames.filterMap Frame.id?).Nodup) {id : UInt64} {ticket : Nat}
    (entry : l.connection.table[id]? = some ticket)
    (alone : ∀ other : UInt64, l.connection.table[other]? = some ticket → other = id) :
    (l.performAll (frames.map Frame.deed)).repliesTo ticket =
      l.repliesTo ticket ++ frames.filterMap fun frame => frame.event.word? id := by
  have same : ((frames.filterMap l.connection.delivery?).filter (·.ticket == ticket)).map
      (·.reply) = frames.filterMap fun frame => frame.event.word? id := by
    rw [List.filter_filterMap, List.map_filterMap]
    exact List.filterMap_congr fun frame _ => Connection.delivery?_filter entry alone frame
  rw [repliesTo, sent_performAll_frames l distinct, List.filter_append, List.map_append, same]
  rfl

/-- A call that is not on the table is sent nothing. -/
theorem repliesTo_performAll_of_unlisted (l : Line) {frames : List Frame}
    (distinct : (frames.filterMap Frame.id?).Nodup) {ticket : Nat}
    (unlisted : ∀ id : UInt64, l.connection.table[id]? ≠ some ticket) :
    (l.performAll (frames.map Frame.deed)).repliesTo ticket = l.repliesTo ticket := by
  have silent : (frames.filterMap l.connection.delivery?).filter (·.ticket == ticket) = [] := by
    rw [List.filter_eq_nil_iff]
    intro delivery membership same
    obtain ⟨frame, -, sends⟩ := List.mem_filterMap.mp membership
    rw [Connection.delivery?, Option.bind_eq_some_iff] at sends
    obtain ⟨response, -, sends⟩ := sends
    obtain ⟨id, -, sends⟩ := Option.bind_eq_some_iff.mp sends
    obtain ⟨owner, entry, rfl⟩ := Option.map_eq_some_iff.mp sends
    exact unlisted id (eq_of_beq same ▸ entry)
  rw [repliesTo, sent_performAll_frames l distinct, List.filter_append, silent, List.append_nil]
  rfl

end Line

/-- At most one of the frames has something to say to a call, so their order does not
matter to it. -/
theorem words_perm {frames frames' : List Frame} (permuted : frames.Perm frames')
    (distinct : (frames.filterMap Frame.id?).Nodup) (id : UInt64) :
    (frames.filterMap fun frame => frame.event.word? id) =
      frames'.filterMap fun frame => frame.event.word? id := by
  have few : (frames.filterMap fun frame => frame.event.word? id).length ≤ 1 := by
    have once := List.nodup_iff_count_le_one.mp distinct id
    rw [List.count_filterMap] at once
    rw [List.length_filterMap_eq_countP]
    simpa only [Frame.isSome_word?] using once
  have same := permuted.filterMap fun frame => frame.event.word? id
  rcases words : frames.filterMap (fun frame => frame.event.word? id) with
    _ | ⟨reply, _ | ⟨second, more⟩⟩
  · rw [words] at same ⊢
    exact same.nil_eq
  · rw [words] at same ⊢
    exact same.singleton_eq
  · simp [words] at few

namespace Line

theorem connection_perm (l : Line) {frames frames' : List Frame} (permuted : frames.Perm frames') :
    (l.performAll (frames.map Frame.deed)).connection =
      (l.performAll (frames'.map Frame.deed)).connection := by
  have table : (l.performAll (frames.map Frame.deed)).connection.table =
      (l.performAll (frames'.map Frame.deed)).connection.table := by
    apply ExtTreeMap.ext_getElem?
    intro id
    simp only [table_performAll_frames, (permuted.filterMap Frame.id?).mem_iff]
  rw [l.performAll_connection (Frame.isShutDown_deed frames),
    l.performAll_connection (Frame.isShutDown_deed frames'), table]

theorem repliesTo_perm (l : Line) {frames frames' : List Frame} (permuted : frames.Perm frames')
    (distinct : (frames.filterMap Frame.id?).Nodup) {ticket : Nat}
    (alone : ∀ first second : UInt64, l.connection.table[first]? = some ticket →
      l.connection.table[second]? = some ticket → first = second) :
    (l.performAll (frames.map Frame.deed)).repliesTo ticket =
      (l.performAll (frames'.map Frame.deed)).repliesTo ticket := by
  have distinct' := (permuted.filterMap Frame.id?).nodup_iff.mp distinct
  by_cases listed : ∃ id : UInt64, l.connection.table[id]? = some ticket
  · obtain ⟨id, entry⟩ := listed
    have only : ∀ other : UInt64, l.connection.table[other]? = some ticket → other = id :=
      fun other found => alone other id found entry
    rw [repliesTo_performAll_frames l distinct entry only,
      repliesTo_performAll_frames l distinct' entry only, words_perm permuted distinct]
  · have unlisted : ∀ id : UInt64, l.connection.table[id]? ≠ some ticket :=
      fun id entry => listed ⟨id, entry⟩
    rw [repliesTo_performAll_of_unlisted l distinct unlisted,
      repliesTo_performAll_of_unlisted l distinct' unlisted]

end Line

/-! ### What a socket makes of them -/

theorem foldl_deliver_connection (s : Socket) (sent : List Delivery) (c : Connection) :
    { sent.foldl deliver s with connection := c } =
      sent.foldl deliver { s with connection := c } := by
  induction sent generalizing s with
  | nil => rfl
  | cons first rest ih => exact ih (s.deliver first)

theorem settle_settle (s : Socket) (sent more : List Delivery) (c c' : Connection) :
    (s.settle (sent, c)).settle (more, c') = s.settle (sent ++ more, c') := by
  rw [settle, settle, settle, foldl_deliver_connection, List.foldl_append]

/-- A call takes the first reply that it is sent, so only the order of its own replies
counts. -/
theorem settle_eq_of_replies (s : Socket) {sent sent' : List Delivery} (c : Connection)
    (same : ∀ ticket, (sent.filter (·.ticket == ticket)).map (·.reply) =
      (sent'.filter (·.ticket == ticket)).map (·.reply)) :
    s.settle (sent, c) = s.settle (sent', c) := by
  rw [settle, settle, foldl_deliver_frame, foldl_deliver_frame _ sent']
  congr 1
  apply ExtTreeMap.ext_getElem?
  intro ticket
  rw [getElem?_foldl_deliver, getElem?_foldl_deliver, same ticket]

/-- A socket hands on what frames make its connection send. -/
theorem after_frames (s : Socket) (frames : List Frame) :
    s.after (frames.map Frame.event) =
      s.settle ((Line.performAll ⟨s.connection, 0, []⟩ (frames.map Frame.deed)).sent,
        (Line.performAll ⟨s.connection, 0, []⟩ (frames.map Frame.deed)).connection) := by
  induction frames using List.reverseRecOn with
  | nil => rfl
  | append_singleton frames frame ih =>
    rw [List.map_append, List.map_singleton, after_snoc, ih, step_of_frame _ frame.isFrame_event,
      settle_connection, settle_settle, List.map_append, List.map_singleton, Line.performAll_append]
    rw [Line.performAll, Line.performAll, List.foldl_cons, List.foldl_nil, Line.perform_frame]
    rfl

/-- Frames that name no id twice may come in any order. Whatever the table is, what is left
of it is the same, and so is what every call in it is sent: what the frame with its id says,
if there is one. A socket, after any events, is the same in the end. -/
theorem arrival_order_is_irrelevant {frames frames' : List Frame} (permuted : frames.Perm frames')
    (distinct : (frames.filterMap Frame.id?).Nodup) :
    (∀ l : Line,
      let forth := l.performAll (frames.map Frame.deed)
      let back := l.performAll (frames'.map Frame.deed)
      forth.connection = back.connection ∧
      forth.sent.Perm back.sent ∧
      ∀ (id : UInt64) (ticket : Nat), l.connection.table[id]? = some ticket →
        (∀ other : UInt64, l.connection.table[other]? = some ticket → other = id) →
          forth.repliesTo ticket = back.repliesTo ticket ∧
          forth.repliesTo ticket =
            l.repliesTo ticket ++ frames.filterMap (fun frame => frame.event.word? id) ∧
          forth.connection.table[id]? =
            if id ∈ frames.filterMap Frame.id? then none else some ticket) ∧
    ∀ (debug : Bool) (timeout : Option Duration) (events : List Event),
      ((new debug timeout).after events).after (frames.map Frame.event) =
        ((new debug timeout).after events).after (frames'.map Frame.event) := by
  refine ⟨?_, ?_⟩
  · intro l forth back
    have distinct' := (permuted.filterMap Frame.id?).nodup_iff.mp distinct
    refine ⟨l.connection_perm permuted, ?_, ?_⟩
    · simp only [forth, back, l.sent_performAll_frames distinct, l.sent_performAll_frames distinct']
      exact (permuted.filterMap _).append_left _
    · intro id ticket entry only
      refine ⟨l.repliesTo_perm permuted distinct ?_,
        l.repliesTo_performAll_frames distinct entry only, ?_⟩
      · intro first second found found'
        rw [only first found, only second found']
      · rw [← entry]
        exact l.table_performAll_frames frames id
  · intro debug timeout events
    have listed := listed_after debug timeout events
    rw [after_frames, after_frames, Line.connection_perm _ permuted]
    apply settle_eq_of_replies
    intro ticket
    apply Line.repliesTo_perm _ permuted distinct
    intro first second entry entry'
    exact listed.id_unique entry entry'

/-- The second of two calls is answered, and then the first. A frame between them cannot be
read, one has no id, and one is for a call that is not there. -/
def assorted : List Frame :=
  [.text "\x7b\"id\":2,\"result\":true\x7d", .binary [0xff], .text "\x7b\"method\":\"tick\"\x7d",
    .text "\x7b\"id\":9\x7d",
    .text "\x7b\"id\":1,\"error\":\x7b\"code\":-32601,\"message\":\"no\"\x7d\x7d"]

/-- The calls hear the same if all of it comes the other way round. -/
theorem assorted_order_is_irrelevant :
    let l := Line.new.performAll [.register 1, .register 2]
    let forth := l.performAll (assorted.map Frame.deed)
    let back := l.performAll (assorted.reverse.map Frame.deed)
    let s := (new false none).after [.start ⟨"net_version", []⟩ ⟨none⟩ false]
    (assorted.filterMap Frame.id?).Nodup ∧
      forth.repliesTo 1 = back.repliesTo 1 ∧ (forth.repliesTo 1).length = 1 ∧
      back.connection.table[(2 : UInt64)]? = none ∧
      s.after (assorted.map Frame.event) = s.after (assorted.reverse.map Frame.event) := by
  intro l forth back s
  have distinct : (assorted.filterMap Frame.id?).Nodup := by decide +kernel
  have entry : l.connection.table[(2 : UInt64)]? = some 1 := by decide +kernel
  have accounted := Line.accounted_new.performAll [.register 1, .register 2]
  obtain ⟨lines, sockets⟩ :=
    arrival_order_is_irrelevant (List.reverse_perm assorted).symm distinct
  obtain ⟨connection, -, calls⟩ := lines l
  obtain ⟨same, replies, table⟩ := calls 2 1 entry fun other found =>
    accounted.distinct other 2 1 found entry
  refine ⟨distinct, same, ?_, ?_, sockets false none _⟩
  · rw [replies]
    decide +kernel
  · rw [← connection, table]
    decide +kernel

end Countersign.Socket
