import Countersign.Proofs.Rpc.Ids

set_option autoImplicit false

/-!
# Debugging does not touch the calls

What an encoder gives for a call depends on how many calls it has encoded before, and on
nothing else that is done with it. The log depends on debugging alone: it has the line of
every use while debugging is on, and of no other.
-/

namespace Countersign.Rpc

namespace Use

def call? : Use → Option Call
  | .encode call => some call
  | _ => none

def switch? : Use → Option Bool
  | .setDebug on => some on
  | _ => none

def calls (uses : List Use) : List Call := uses.filterMap call?

/-- Whether debugging is on behind some uses: as it was set last, and off at first. -/
def debugging (uses : List Use) : Bool := (uses.filterMap switch?).getLast?.getD false

end Use

namespace Encoder

open Use (calls debugging)

def bodyOf (call : Call) (number : Nat) : String :=
  "\x7b\"jsonrpc\":\"2.0\",\"method\":" ++ (Json.str call.method).compact ++
    ",\"params\":" ++ (Json.arr call.params).compact ++ ",\"id\":" ++ Digits.decimal number ++
    "\x7d"

def numbered (first : UInt64) (earlier : Nat) (call : Call) : Encoded :=
  let number := (first.toNat + earlier) % UInt64.size
  ⟨UInt64.ofNat number, bodyOf call number⟩

theorem chars_ofUInt64 (n : UInt64) :
    (Json.ofUInt64 n).chars = (Digits.decimal n.toNat).toList := by
  have positive : ¬(n.toNat : Int) < 0 := Int.not_lt.mpr (Int.natCast_nonneg _)
  simp only [Json.ofUInt64, Json.chars, Json.integerText, Integer.ofUInt64, Digits.signed,
    if_neg positive, Int.natAbs_natCast]

theorem text_envelope (encoder : Encoder) (call : Call) :
    (encoder.envelope call).text = bodyOf call encoder.nextId.toNat := by
  have names : Json.quote "jsonrpc" = "\"jsonrpc\"".toList ∧ Json.quote "2.0" = "\"2.0\"".toList ∧
      Json.quote "method" = "\"method\"".toList ∧ Json.quote "params" = "\"params\"".toList ∧
      Json.quote "id" = "\"id\"".toList := by decide
  unfold bodyOf
  apply String.toList_inj.mp
  simp [Request.text, Request.json, envelope, Json.compact, Json.chars, Json.memberChars,
    chars_ofUInt64, names]

theorem numbered_zero (encoder : Encoder) (call : Call) :
    numbered encoder.nextId 0 call = (encoder.encode call).1 := by
  have small : (encoder.nextId.toNat + 0) % UInt64.size = encoder.nextId.toNat :=
    Nat.mod_eq_of_lt encoder.nextId.toNat_lt
  simp only [numbered, small, UInt64.ofNat_toNat, encode, text_envelope]

theorem numbered_add (first : UInt64) (k earlier : Nat) :
    numbered (first + UInt64.ofNat k) earlier = numbered first (k + earlier) := by
  have same : ((first + UInt64.ofNat k).toNat + earlier) % UInt64.size =
      (first.toNat + (k + earlier)) % UInt64.size := by
    rw [UInt64.toNat_add, UInt64.toNat_ofNat', UInt64.size]
    omega
  funext call
  simp only [numbered, same]

theorem envelopes_eq (encoder : Encoder) (uses : List Use) :
    encoder.envelopes uses = (calls uses).mapIdx (numbered encoder.nextId) := by
  induction uses generalizing encoder with
  | nil => rfl
  | cons next rest ih =>
    cases next with
    | encode call =>
      calc (encoder.encode call).1 :: encoder.advance.envelopes rest
        _ = numbered encoder.nextId 0 call :: (calls rest).mapIdx (numbered (encoder.nextId + 1)) := by
          rw [numbered_zero, ih]
          rfl
        _ = numbered encoder.nextId 0 call ::
            (calls rest).mapIdx fun k => numbered encoder.nextId (k + 1) := by
          simp only [Nat.add_comm _ 1, ← numbered_add]
          rfl
        _ = (call :: calls rest).mapIdx (numbered encoder.nextId) := List.mapIdx_cons.symm
    | _ => exact ih _

/-- The next call gets the envelope of its place among all calls. -/
theorem encode_after (first : UInt64) (before : List Use) (call : Call) :
    (((startingAt first).after before).encode call).1 =
      numbered first (calls before).length call := by
  rw [← numbered_zero, after_nextId, envelopes_eq, List.length_mapIdx, numbered_add]
  rfl

theorem nodup_window (encoder : Encoder) (uses : List Use) (skipped : Nat) {count : Nat}
    (few : count ≤ UInt64.size) :
    ((((encoder.envelopes uses).drop skipped).take count).map Encoded.id).Nodup := by
  rw [List.map_take, List.map_drop, envelopes_ids, ← List.map_drop, ← List.map_take]
  rw [List.Nodup, List.pairwise_map, List.pairwise_iff_getElem]
  intro i j beforeI beforeJ ordered same
  rw [List.length_take] at beforeJ
  simp only [List.getElem_take, List.getElem_drop, List.getElem_range] at same
  have numbers := congrArg UInt64.toNat ((UInt64.add_right_inj _).mp same)
  rw [UInt64.toNat_ofNat', UInt64.toNat_ofNat'] at numbers
  rw [UInt64.size] at few
  omega

/-! ### The log -/

def lines (encoder : Encoder) : List Use → List LogLine
  | [] => []
  | next :: rest => (encoder.use next).2.1 ++ (encoder.use next).2.2.lines rest

def line? (first : UInt64) (before : List Use) : Use → Option LogLine
  | .encode call => some ⟨.debug, (numbered first (calls before).length call).body⟩
  | .log message => some ⟨.debug, message⟩
  | .error message => some ⟨.error, message⟩
  | .setDebug _ => none

/-- The line that a use leaves in the log, if debugging is on before it. -/
def logged? (first : UInt64) (before : List Use) (next : Use) : Option LogLine :=
  if debugging before then line? first before next else none

theorem after_debug (encoder : Encoder) (uses : List Use) :
    (encoder.after uses).debug = (uses.filterMap Use.switch?).getLast?.getD encoder.debug := by
  induction uses generalizing encoder with
  | nil => rfl
  | cons next rest ih =>
    calc ((encoder.use next).2.2.after rest).debug
      _ = (rest.filterMap Use.switch?).getLast?.getD (encoder.use next).2.2.debug := ih _
      _ = ((next :: rest).filterMap Use.switch?).getLast?.getD encoder.debug := by
        cases next with
        | setDebug on =>
          have switched : (Use.setDebug on :: rest).filterMap Use.switch? =
              on :: rest.filterMap Use.switch? := rfl
          rw [switched, List.getLast?_cons]
          rfl
        | _ => rfl

theorem use_lines (first : UInt64) (before : List Use) (next : Use) :
    (((startingAt first).after before).use next).2.1 = (logged? first before next).toList := by
  have on : ((startingAt first).after before).debug = debugging before := after_debug _ before
  cases next with
  | encode call =>
    have body := congrArg Encoded.body (encode_after first before call)
    simp only [use, encode, log, report, on, logged?, line?] at body ⊢
    rw [body]
    split <;> rfl
  | setDebug on => simp [use, logged?, line?]
  | log message =>
    simp only [use, log, report, on, logged?, line?]
    split <;> rfl
  | error message =>
    simp only [use, error, report, on, logged?, line?]
    split <;> rfl

theorem lines_after (first : UInt64) (before rest : List Use) :
    ((startingAt first).after before).lines rest =
      rest.zipIdx.filterMap fun entry => logged? first (before ++ rest.take entry.2) entry.1 := by
  induction rest generalizing before with
  | nil => rfl
  | cons next rest ih =>
    have behind : (((startingAt first).after before).use next).2.2 =
        (startingAt first).after (before ++ [next]) := by
      rw [after, after, List.foldl_append]
      rfl
    calc (((startingAt first).after before).use next).2.1 ++
          (((startingAt first).after before).use next).2.2.lines rest
      _ = (logged? first before next).toList ++
          rest.zipIdx.filterMap fun entry =>
            logged? first (before ++ [next] ++ rest.take entry.2) entry.1 := by
        rw [use_lines, behind, ih]
      _ = (next :: rest).zipIdx.filterMap fun entry =>
          logged? first (before ++ (next :: rest).take entry.2) entry.1 := by
        rw [List.zipIdx_cons, List.zipIdx_succ, List.filterMap_cons, List.filterMap_map]
        simp only [List.take_zero, List.append_nil, List.append_assoc, List.singleton_append]
        cases logged? first before next <;> rfl

/-- The envelopes of the calls are numbered in a row, from the first id up and over the largest
one to zero, with the number in their text. At any time the encoder tells the id of the next
one, and no id comes again before all others have come. Whatever else is done with the encoder,
the envelopes stay as they are. The log has what is done while debugging is on, in this order,
and nothing else. -/
theorem numbering_ignores_debugging (first : UInt64) (uses : List Use) :
    let encoder := startingAt first
    encoder.envelopes uses = (calls uses).mapIdx (numbered first) ∧
      (∀ before rest, uses = before ++ rest →
        ∀ next ∈ (encoder.envelopes uses)[(calls before).length]?,
          (encoder.after before).nextId = next.id) ∧
      (∀ skipped count, count ≤ UInt64.size →
        ((((encoder.envelopes uses).drop skipped).take count).map Encoded.id).Nodup) ∧
      (∀ others, calls others = calls uses → encoder.envelopes others = encoder.envelopes uses) ∧
      encoder.lines uses =
        uses.zipIdx.filterMap fun entry => logged? first (uses.take entry.2) entry.1 := by
  intro encoder
  refine ⟨encoder.envelopes_eq uses, ?_, ?_, ?_, lines_after first [] uses⟩
  · intro before rest _ next place
    rw [encoder.envelopes_eq, List.getElem?_mapIdx] at place
    obtain ⟨call, -, rfl⟩ := Option.map_eq_some_iff.mp place
    exact congrArg Encoded.id (encode_after first before call)
  · intro skipped count few
    exact encoder.nodup_window uses skipped few
  · intro others same
    rw [encoder.envelopes_eq, encoder.envelopes_eq, same]

end Encoder

end Countersign.Rpc
