import Countersign.Http.Exchange
import Countersign.Proofs.Rpc.Responses
import Countersign.Proofs.Socket.Correlation
import Countersign.Proofs.Socket.Entries
import Countersign.Proofs.Text.Utf8

set_option autoImplicit false

/-!
# One answer over two transports

A text that answers a call may come as a frame on a socket or as the body of an HTTP
response. Both transports read it alike, and the call comes back with the same reply, as
long as the error member can be read. Where it cannot, the call over HTTP comes back with
that failure; the socket drops the frame, and the call waits on.
-/

namespace Countersign

theorem Http.Reaction.reply?_body (text : String) :
    (response 200 (Utf8.encode text) true).reply? = some (Rpc.replyOf text) := by
  simp only [reply?, outcome, ne_eq, not_true_eq_false, if_false, if_true,
    Utf8.decodeLossy_encode, Rpc.replyOf]
  cases Rpc.Response.decode text with
  | error e => rfl
  | ok answer =>
    simp only
    cases answer.reply <;> rfl

/-- A body that is the encoding of a text is read as the text, however long it took. -/
theorem Http.Client.execute_reply (client : Client) (options : CallOptions) (call : Call)
    (text : String) :
    (client.execute options call (.response 200 (Utf8.encode text) true)).1.reply =
      some (Rpc.replyOf text) := by
  rw [execute_fst_reply, Reaction.reply?_body]
  rfl

namespace Socket

theorem Waiting.deliver_aborted (w : Waiting) (reply : Reply) :
    (w.deliver reply).aborted = w.aborted := by
  unfold deliver
  split <;> rfl

theorem Event.isFrame_of_frame? {event : Event} {text : String} (frame : event.frame? = some text) :
    event.isFrame = true := by
  cases event <;> first | rfl | cases frame

section Frame

variable {event : Event} {text : String} {members : List (String × Json)}

/-- A frame that can be read is an answer, from which both transports take the reply. -/
theorem Event.response?_of_legible (frame : event.frame? = some text)
    (parsed : Json.parse? text = some (.obj members))
    (readable : Rpc.Response.legible members = true) :
    ∃ response, event.response? = some response ∧
      response.id = (members.lookup "id").bind Json.asUInt64? ∧
      Rpc.replyOf text = response.reply := by
  obtain ⟨outcome, read⟩ := Rpc.Response.ofMembers_of_legible readable
  rw [← Rpc.Response.decode_of_parsed parsed] at read
  refine ⟨_, ?_, rfl, by rw [Rpc.replyOf, read]⟩
  rw [response?, frame, Option.bind_some, read]
  rfl

theorem Event.response?_of_not_legible (frame : event.frame? = some text)
    (parsed : Json.parse? text = some (.obj members))
    (unreadable : Rpc.Response.legible members = false) :
    event.response? = none ∧ Rpc.replyOf text = .error .badErrorObject := by
  have refused : Rpc.Response.decode text = .error .badErrorObject := by
    rw [Rpc.Response.decode_of_parsed parsed, Rpc.Response.ofMembers_of_not_legible unreadable]
  constructor
  · rw [response?, frame, Option.bind_some, refused]
    rfl
  · rw [Rpc.replyOf, refused]

end Frame

/-- A call that has an answer comes back with it when it is looked at, unless it has been
aborted. -/
theorem poll_of_answer {s : Socket} {ticket : Nat} {w : Waiting} {reply : Reply}
    (live : s.calls[ticket]? = some w) (answered : w.answer = some reply) (expired : Bool) :
    (s.step (.poll ticket expired)).1 =
      .ended (some ticket) (if w.aborted then .error .cancelled else reply) := by
  rw [poll_ended_iff live, Waiting.look, CallOptions.Moment.look]
  simp only [answered]
  split <;> rfl

/-- A frame that can be read goes to the call that waits under its id. -/
theorem step_of_listed {s : Socket} {event : Event} {response : Rpc.Response} {id : UInt64}
    {ticket : Nat} (frame : event.isFrame = true) (read : event.response? = some response)
    (named : response.id = some id) (entry : s.connection.table[id]? = some ticket) :
    s.step event = (.noted, [], s.answered id ticket response.reply) := by
  rw [step_of_frame s frame, read]
  simp only [Option.map_some, Option.getD_some, Connection.answer, named, entry]
  rfl

/-- On a socket, a text that answers a waiting call settles it as HTTP would, exactly if its
error member can be read. If not, HTTP reports that, and the socket is left as it was. -/
theorem settles_as_http_iff_legible (debug : Bool) (timeout : Option Duration)
    (events : List Event) (event : Event) (text : String) (frame : event.frame? = some text)
    (members : List (String × Json)) (parsed : Json.parse? text = some (.obj members)) (id : UInt64)
    (named : (members.lookup "id").bind Json.asUInt64? = some id) (ticket : Nat)
    (entry : ((new debug timeout).after events).connection.table[id]? = some ticket)
    (client : Http.Client) (options : CallOptions) (call : Call) :
    let s := (new debug timeout).after events
    let next := (s.step event).2.2
    let http := (client.execute options call (.response 200 (Utf8.encode text) true)).1.reply
    ∃ w, s.calls[ticket]? = some w ∧ w.id = id ∧
      ((next.connection.table = s.connection.table.erase id ∧
          ∃ reply, http = some reply ∧ ∀ expired, (next.step (.poll ticket expired)).1 =
            .ended (some ticket) (if w.aborted then .error .cancelled else reply)) ↔
        Rpc.Response.legible members = true) ∧
      (Rpc.Response.legible members = false →
        http = some (.error .badErrorObject) ∧ s.step event = (.noted, [], s)) := by
  intro s next http
  have listed : s.connection.table[id]? = some ticket := entry
  obtain ⟨w, live, sameId, unanswered⟩ := (listed_after debug timeout events).waits id ticket listed
  have framed := Event.isFrame_of_frame? frame
  have replied : http = some (Rpc.replyOf text) := client.execute_reply options call text
  have dropped : Rpc.Response.legible members = false →
      http = some (.error .badErrorObject) ∧ s.step event = (.noted, [], s) := by
    intro unreadable
    obtain ⟨silent, failed⟩ := Event.response?_of_not_legible frame parsed unreadable
    refine ⟨by rw [replied, failed], step_of_unlisted framed ?_⟩
    intro response other read
    rw [silent] at read
    cases read
  refine ⟨w, live, sameId, ⟨?_, ?_⟩, dropped⟩
  · rintro ⟨removed, -⟩
    by_contra unreadable
    have unchanged : next = s := by
      simp only [next, (dropped (Bool.eq_false_iff.mpr unreadable)).2]
    -- the entry would have to be gone from the table that has it
    rw [unchanged] at removed
    have gone : s.connection.table[id]? = none := by
      rw [removed]
      simp
    rw [listed] at gone
    cases gone
  · intro readable
    obtain ⟨response, read, numbered, same⟩ := Event.response?_of_legible frame parsed readable
    have moved : next = s.answered id ticket response.reply :=
      congrArg (·.2.2) (step_of_listed framed read (numbered.trans named) listed)
    have delivered : next.calls[ticket]? = some (w.deliver response.reply) := by
      rw [moved, answered, getElem?_modify_calls, if_pos rfl, live, Option.map_some]
    have given : (w.deliver response.reply).answer = some response.reply := by
      rw [Waiting.deliver_answer, unanswered, Option.none_or]
    refine ⟨by rw [moved, answered], response.reply, by rw [replied, same], ?_⟩
    intro expired
    rw [poll_of_answer delivered given expired, Waiting.deliver_aborted]

/-! ### A call that is told an error, and one that is not -/

theorem exists_members {text : String} {test : List (String × Json) → Bool}
    (tested : (match Json.parse? text with
      | some (.obj members) => test members
      | _ => false) = true) :
    ∃ members, Json.parse? text = some (.obj members) ∧ test members = true := by
  split at tested
  · next members parsed => exact ⟨members, parsed, tested⟩
  · cases tested

def lone : List Event := [.start ⟨"eth_blockNumber", []⟩ ⟨none⟩ false]

def refusal : String := "\x7b\"id\":1,\"error\":\x7b\"code\":-32601,\"message\":\"no\"\x7d\x7d"

/-- The error object is told to the caller over either transport. -/
theorem lone_call_refused :
    ∃ reply,
      (Http.Client.execute ⟨.new, none⟩ ⟨none⟩ ⟨"eth_blockNumber", []⟩
          (.response 200 (Utf8.encode refusal) true)).1.reply = some reply ∧
        (((new false none).after lone).step (.text refusal)).2.2.connection.table =
          ((new false none).after lone).connection.table.erase 1 ∧
        ∀ expired, ((((new false none).after lone).step (.text refusal)).2.2.step
          (.poll 0 expired)).1 = .ended (some 0) reply := by
  obtain ⟨members, parsed, tested⟩ := @exists_members refusal
    (fun members => (members.lookup "id").bind Json.asUInt64? == some 1 &&
      Rpc.Response.legible members) (by decide +kernel)
  rw [Bool.and_eq_true, beq_iff_eq] at tested
  obtain ⟨w, live, -, settled, -⟩ := settles_as_http_iff_legible false none lone
    (.text refusal) refusal rfl members parsed 1 tested.1 0 (by decide +kernel) ⟨.new, none⟩ ⟨none⟩
    ⟨"eth_blockNumber", []⟩
  obtain ⟨removed, reply, replied, polled⟩ := settled.mpr tested.2
  have unaborted : ((new false none).after lone).calls[0]?.map (·.aborted) = some false := by
    decide +kernel
  rw [live, Option.map_some, Option.some.injEq] at unaborted
  simp only [unaborted, Bool.false_eq_true, if_false] at polled
  exact ⟨reply, replied, removed, polled⟩

def botched : String := "\x7b\"id\":1,\"error\":1\x7d"

def Report.isWaiting : Report → Bool
  | .waiting => true
  | _ => false

theorem Report.eq_of_isWaiting {report : Report} (waits : report.isWaiting = true) :
    report = .waiting := by
  cases report <;> first | rfl | cases waits

/-- The socket drops the answer and the call waits on, while HTTP tells what is wrong. -/
theorem lone_call_stranded :
    let s := (new false none).after lone
    let next := (s.step (.text botched)).2.2
    s.connection.table[(1 : UInt64)]? = some 0 ∧
      (∃ members, Json.parse? botched = some (.obj members) ∧
        (members.lookup "id").bind Json.asUInt64? = some 1) ∧
      next.connection.table[(1 : UInt64)]? = some 0 ∧
      (next.step (.poll 0 true)).1 = .waiting ∧
      ∀ client options call,
        (Http.Client.execute client options call
          (.response 200 (Utf8.encode botched) true)).1.reply =
            some (.error .badErrorObject) := by
  obtain ⟨members, parsed, tested⟩ := @exists_members botched
    (fun members => (members.lookup "id").bind Json.asUInt64? == some 1 &&
      !Rpc.Response.legible members) (by decide +kernel)
  rw [Bool.and_eq_true, beq_iff_eq, Bool.not_eq_true'] at tested
  refine ⟨by decide +kernel, ⟨members, parsed, tested.1⟩, by decide +kernel,
    Report.eq_of_isWaiting (by decide +kernel), ?_⟩
  intro client options call
  rw [Http.Client.execute_reply, Rpc.replyOf, Rpc.Response.decode_of_parsed parsed,
    Rpc.Response.ofMembers_of_not_legible tested.2]

end Socket

end Countersign
