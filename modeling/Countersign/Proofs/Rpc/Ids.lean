import Countersign.Rpc.Encoder

set_option autoImplicit false

/-!
# Ids in a row

Whatever else is done with an encoder, its envelopes have ids in a row, from the first one
up and over the largest one to zero. The latest id is not kept but inferred: it is taken to
be the one before the next, as long as the next is above the first. So it is known until
the ids have started over, and lost from then on.
-/

namespace Countersign.Rpc

inductive Use where
  | encode (call : Call)
  | setDebug (on : Bool)
  | log (message : String)
  | error (message : String)

namespace Encoder

/-- The envelope that a use gives, if it gives one, what goes to the log, and the encoder
after it. -/
def use (encoder : Encoder) : Use → Option Encoded × List LogLine × Encoder
  | .encode call =>
    let (encoded, lines, encoder) := encoder.encode call
    (some encoded, lines, encoder)
  | .setDebug on => (none, [], encoder.setDebug on)
  | .log message => (none, encoder.log message, encoder)
  | .error message => (none, encoder.error message, encoder)

def after (encoder : Encoder) (uses : List Use) : Encoder :=
  uses.foldl (fun encoder next => (encoder.use next).2.2) encoder

def envelopes (encoder : Encoder) : List Use → List Encoded
  | [] => []
  | next :: rest => (encoder.use next).1.toList ++ (encoder.use next).2.2.envelopes rest

@[simp]
theorem startingAt_firstId (first : UInt64) : (startingAt first).firstId = first := rfl

@[simp]
theorem startingAt_nextId (first : UInt64) : (startingAt first).nextId = first := rfl

theorem after_firstId (encoder : Encoder) (uses : List Use) :
    (encoder.after uses).firstId = encoder.firstId := by
  induction uses generalizing encoder with
  | nil => rfl
  | cons next rest ih =>
    have kept : (encoder.use next).2.2.firstId = encoder.firstId := by cases next <;> rfl
    exact (ih _).trans kept

theorem use_nextId (encoder : Encoder) (next : Use) :
    (encoder.use next).2.2.nextId =
      encoder.nextId + UInt64.ofNat (encoder.use next).1.toList.length := by
  cases next with
  | encode call => rfl
  | _ => exact (UInt64.add_zero _).symm

theorem after_nextId (encoder : Encoder) (uses : List Use) :
    (encoder.after uses).nextId =
      encoder.nextId + UInt64.ofNat (encoder.envelopes uses).length := by
  induction uses generalizing encoder with
  | nil => exact (UInt64.add_zero _).symm
  | cons next rest ih =>
    calc ((encoder.use next).2.2.after rest).nextId
      _ = (encoder.use next).2.2.nextId +
          UInt64.ofNat ((encoder.use next).2.2.envelopes rest).length := ih _
      _ = encoder.nextId + UInt64.ofNat (encoder.envelopes (next :: rest)).length := by
        rw [use_nextId, envelopes, List.length_append, UInt64.ofNat_add, UInt64.add_assoc]

theorem envelopes_ids (encoder : Encoder) (uses : List Use) :
    (encoder.envelopes uses).map Encoded.id =
      (List.range (encoder.envelopes uses).length).map fun k =>
        encoder.nextId + UInt64.ofNat k := by
  induction uses generalizing encoder with
  | nil => rfl
  | cons next rest ih =>
    cases next with
    | encode call =>
      have shift : ∀ k, encoder.advance.nextId + UInt64.ofNat k =
          encoder.nextId + UInt64.ofNat (k + 1) := by
        intro k
        rw [advance, UInt64.ofNat_add, UInt64.add_assoc, UInt64.add_comm 1]
        rfl
      calc encoder.nextId :: (encoder.advance.envelopes rest).map Encoded.id
        _ = encoder.nextId :: (List.range (encoder.advance.envelopes rest).length).map fun k =>
            encoder.nextId + UInt64.ofNat (k + 1) := by simp only [ih, shift]
        _ = _ := by simp [envelopes, use, encode, List.range_succ_eq_map, Function.comp_def]
    | _ => exact ih _

def latestId (encoder : Encoder) (uses : List Use) : Option UInt64 :=
  (encoder.envelopes uses).getLast?.map Encoded.id

/-- After an envelope the next id is the one behind that of the last envelope. -/
theorem latestId_eq (encoder : Encoder) (uses : List Use) :
    encoder.latestId uses =
      if (encoder.envelopes uses).length = 0 then none
      else some ((encoder.after uses).nextId - 1) := by
  rw [latestId, ← List.getLast?_map, envelopes_ids, List.getLast?_map, List.getLast?_range]
  split
  · rfl
  · next used =>
    obtain ⟨n, length⟩ := Nat.exists_eq_succ_of_ne_zero used
    rw [after_nextId, length, Nat.succ_eq_add_one, Nat.add_sub_cancel, UInt64.ofNat_add,
      ← UInt64.add_assoc]
    exact congrArg some (UInt64.add_sub_cancel _ _).symm

/-- Before as many envelopes as there are ids, the next id is above the first exactly if there
was one and the ids have not started over. -/
theorem firstId_lt_nextId_iff (first : UInt64) (uses : List Use)
    (few : ((startingAt first).envelopes uses).length < UInt64.size) :
    first < ((startingAt first).after uses).nextId ↔
      ((startingAt first).envelopes uses).length ≠ 0 ∧
        first.toNat + ((startingAt first).envelopes uses).length < UInt64.size := by
  have small := first.toNat_lt
  rw [after_nextId, startingAt_nextId, UInt64.lt_iff_toNat_lt, UInt64.toNat_add,
    UInt64.toNat_ofNat_of_lt' few]
  rw [UInt64.size] at few ⊢
  omega

/-- With fewer envelopes than there are ids, the encoder tells the id of the latest one, or
that there was none, exactly as long as the ids have not started over. From then on it tells
of none. -/
theorem lastId_is_latest_iff_not_over (first : UInt64) (uses : List Use)
    (few : ((startingAt first).envelopes uses).length < UInt64.size) :
    let encoder := (startingAt first).after uses
    let count := ((startingAt first).envelopes uses).length
    (encoder.lastId = (startingAt first).latestId uses ↔ first.toNat + count < UInt64.size) ∧
      (UInt64.size ≤ first.toNat + count → encoder.lastId = none) := by
  intro encoder count
  have small := first.toNat_lt
  have told : encoder.lastId =
      if count ≠ 0 ∧ first.toNat + count < UInt64.size then some (encoder.nextId - 1) else none := by
    rw [lastId, after_firstId, startingAt_firstId]
    simp only [encoder, firstId_lt_nextId_iff first uses few]
    rfl
  rw [told, latestId_eq]
  by_cases unused : count = 0
  · simp [count, unused, small]
  · simp [encoder, count, unused]

def probe : Use := .encode ⟨"eth_blockNumber", []⟩

/-- The last id but one is remembered, as nothing has started over yet. -/
theorem last_but_one_remembered :
    ((startingAt 0xFFFFFFFFFFFFFFFE).envelopes [.log "", probe, .setDebug true]).length = 1 ∧
      ((startingAt 0xFFFFFFFFFFFFFFFE).after [.log "", probe, .setDebug true]).lastId =
        some 0xFFFFFFFFFFFFFFFE :=
  ⟨rfl, (lastId_is_latest_iff_not_over _ [.log "", probe, .setDebug true] (by decide)).1.mpr
    (by decide)⟩

/-- The largest id is forgotten as soon as it is given. -/
theorem largest_forgotten :
    ((startingAt 0xFFFFFFFFFFFFFFFF).envelopes [probe]).length = 1 ∧
      (startingAt 0xFFFFFFFFFFFFFFFF).latestId [probe] = some 0xFFFFFFFFFFFFFFFF ∧
      ((startingAt 0xFFFFFFFFFFFFFFFF).after [probe]).lastId = none :=
  ⟨rfl, rfl, rfl⟩

end Encoder

end Countersign.Rpc
