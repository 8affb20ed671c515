import Countersign.Proofs.Json.Members
import Countersign.Proofs.LocalTx.Reconciliation
import Countersign.Proofs.Quantities
import Countersign.Proofs.Text.ByteOrder

set_option autoImplicit false

/-!
# From the node's list to a view

Each name in the node's list that writes a hash gives one transaction, whatever stands under
it, and the transactions come in the order of the names. A hash has many names: its digits are
of either case, and the marker may be missing. A view that starts empty has each hash once all
the same, and its entry is what stands under the last of these names.
-/

namespace Countersign

theorem Quantity.ofJson?_eq_none_iff {value : Json} :
    ofJson? value = none ↔ ∀ n < UInt64.size, ¬Denotes value n := by
  rw [Option.eq_none_iff_forall_ne_some]
  constructor
  · intro refused n fits denoted
    apply refused (UInt64.ofNat n)
    rwa [ofJson?_eq_some_iff, UInt64.toNat_ofNat_of_lt' fits]
  · intro none n read
    exact none n.toNat n.toNat_lt (ofJson?_eq_some_iff.mp read)

namespace LocalTx

def blockValue? (entry : Json) : Option Json :=
  (entry.get? "transaction").bind (Json.get? "blockNumber")

structure Tells (member : String × Json) (tx : LocalTx) : Prop where
  hash : Hex.Writes member.1 tx.hash.bytes
  status : ∀ text, member.2.get? "status" = some (.str text) → tx.status = text
  unknown : (∀ text, member.2.get? "status" ≠ some (.str text)) → tx.status = "unknown"
  mined : tx.block ≠ pendingBlock →
    ∃ value, blockValue? member.2 = some value ∧ Quantity.Denotes value tx.block.toNat
  pending : tx.block = pendingBlock ↔
    blockValue? member.2 = none ∨ ∃ value, blockValue? member.2 = some value ∧
      ((∀ n < UInt64.size, ¬Quantity.Denotes value n) ∨ Quantity.Denotes value 0)

variable {member : String × Json} {tx : LocalTx}

/-! ### One member -/

/-- No block is told exactly if there is no number, or one that does not fit, or zero. -/
theorem block_eq_pendingBlock_iff {given : Option Json} :
    (given.bind Quantity.ofJson?).getD pendingBlock = pendingBlock ↔
      given = none ∨ ∃ value, given = some value ∧
        ((∀ n < UInt64.size, ¬Quantity.Denotes value n) ∨ Quantity.Denotes value 0) := by
  cases given with
  | none => simp
  | some value =>
    have zero : Quantity.Denotes value 0 ↔ Quantity.ofJson? value = some pendingBlock := by
      rw [Quantity.ofJson?_eq_some_iff]
      rfl
    cases number : Quantity.ofJson? value with
    | none => simp [number, ← Quantity.ofJson?_eq_none_iff]
    | some n => simp [number, ← Quantity.ofJson?_eq_none_iff, zero]

theorem denotes_block {given : Option Json}
    (mined : (given.bind Quantity.ofJson?).getD pendingBlock ≠ pendingBlock) :
    ∃ value, given = some value ∧
      Quantity.Denotes value ((given.bind Quantity.ofJson?).getD pendingBlock).toNat := by
  cases read : given.bind Quantity.ofJson? with
  | none =>
    rw [read] at mined
    exact absurd rfl mined
  | some n =>
    obtain ⟨value, rfl, number⟩ := Option.bind_eq_some_iff.mp read
    exact ⟨value, rfl, Quantity.ofJson?_eq_some_iff.mp number⟩

theorem ofMember?_of_writes {hash : Hash} (written : Hex.Writes member.1 hash.bytes) :
    ofMember? member = some ⟨hash, ((member.2.get? "status").bind Json.asString?).getD "unknown",
      ((blockValue? member.2).bind Quantity.ofJson?).getD pendingBlock⟩ := by
  rw [ofMember?, Hex.ofHex_eq_ok_iff.mpr written]
  rfl

theorem tells_of_ofMember? (read : ofMember? member = some tx) : Tells member tx := by
  cases decoded : FixedBytes.ofHex 32 member.1 with
  | error e => simp [ofMember?, decoded] at read
  | ok hash =>
    have written := Hex.ofHex_eq_ok_iff.mp decoded
    rw [ofMember?_of_writes written] at read
    cases read
    refine ⟨written, ?_, ?_, denotes_block, block_eq_pendingBlock_iff⟩
    · intro text given
      rw [given]
      rfl
    · intro missing
      cases given : member.2.get? "status" with
      | none => rfl
      | some value =>
        cases value with
        | str text => exact absurd given (missing text)
        | _ => rfl

theorem Tells.unique {other : LocalTx} (one : Tells member tx) (same : Tells member other) :
    tx = other := by
  have hashes : tx.hash = other.hash := by
    have read := Hex.ofHex_eq_ok_iff.mpr one.hash
    rw [Hex.ofHex_eq_ok_iff.mpr same.hash] at read
    exact Except.ok.inj read.symm
  have statuses : tx.status = other.status := by
    by_cases given : ∃ text, member.2.get? "status" = some (.str text)
    · obtain ⟨text, given⟩ := given
      rw [one.status text given, same.status text given]
    · rw [one.unknown (not_exists.mp given), same.unknown (not_exists.mp given)]
  have blocks : tx.block = other.block := by
    by_cases pending : tx.block = pendingBlock
    · rw [pending, same.pending.mpr (one.pending.mp pending)]
    · obtain ⟨value, given, denoted⟩ := one.mined pending
      obtain ⟨_, again, denotedAgain⟩ := same.mined fun also =>
        pending (one.pending.mpr (same.pending.mp also))
      cases given.symm.trans again
      exact UInt64.toNat_inj.mp (denoted.unique denotedAgain)
  cases tx
  cases other
  simp_all

theorem ofMember?_eq_some_iff : ofMember? member = some tx ↔ Tells member tx := by
  refine ⟨tells_of_ofMember?, fun told => ?_⟩
  have read := ofMember?_of_writes told.hash
  rw [read, told.unique (tells_of_ofMember? read)]

theorem isSome_ofMember? : (ofMember? member).isSome = true ↔
    ∃ hash : Hash, Hex.Writes member.1 hash.bytes := by
  constructor
  · intro read
    obtain ⟨tx, read⟩ := Option.isSome_iff_exists.mp read
    exact ⟨tx.hash, (tells_of_ofMember? read).hash⟩
  · rintro ⟨hash, written⟩
    rw [ofMember?_of_writes written]
    rfl

/-! ### The whole list -/

variable {members : List (String × Json)}

theorem precedes_of_ascends (ordered : (Json.obj members).ascends = true) :
    members.Pairwise fun a b => Utf8.Precedes a.1 b.1 := by
  rw [Json.ascends, decide_eq_true_eq, List.pairwise_map] at ordered
  exact ordered.imp Utf8.precedes_iff.mpr

/-- The members whose names write hashes, and what they give, one by one. -/
theorem forall₂_tells (members : List (String × Json)) :
    List.Forall₂ Tells (members.filter fun member => (ofMember? member).isSome)
      (members.filterMap ofMember?) := by
  induction members with
  | nil => exact .nil
  | cons member members ih =>
    cases read : ofMember? member with
    | none => simpa [read] using ih
    | some tx => simpa [read] using ⟨tells_of_ofMember? read, ih⟩

/-- The last report of a hash is that of the last name which writes it. -/
theorem lastUnder_filterMap_iff {hash : Hash} :
    LastUnder (members.filterMap ofMember?) hash tx ↔
      ∃ before member after, members = before ++ member :: after ∧ Tells member tx ∧
        tx.hash = hash ∧ ∀ later ∈ after, ¬Hex.Writes later.1 hash.bytes := by
  constructor
  · rintro ⟨before, after, split, same, differ⟩
    obtain ⟨front, back, rfl, -, behind⟩ := List.filterMap_eq_append_iff.mp split
    obtain ⟨skipped, member, rest, rfl, -, read, rfl⟩ := List.filterMap_eq_cons_iff.mp behind
    refine ⟨front ++ skipped, member, rest, by simp, tells_of_ofMember? read, same, ?_⟩
    intro later among written
    exact differ _ (List.mem_filterMap.mpr ⟨later, among, ofMember?_of_writes written⟩) rfl
  · rintro ⟨before, member, after, rfl, told, same, differ⟩
    refine ⟨before.filterMap ofMember?, after.filterMap ofMember?, ?_, same, ?_⟩
    · rw [List.filterMap_append, List.filterMap_cons_some (ofMember?_eq_some_iff.mpr told)]
    · rintro later among rfl
      obtain ⟨source, below, read⟩ := List.mem_filterMap.mp among
      exact differ source below (tells_of_ofMember? read).hash

/-- The transactions are those that the members give whose names write hashes, one for each, in
the order of the bytes of the names. -/
def Gathers (members : List (String × Json)) (txs : List LocalTx) : Prop :=
  ∃ named, List.Sublist named members ∧
    (∀ member ∈ members, member ∈ named ↔ ∃ hash : Hash, Hex.Writes member.1 hash.bytes) ∧
    named.Pairwise (fun a b => Utf8.Precedes a.1 b.1) ∧ List.Forall₂ Tells named txs

theorem gathers_filterMap (ascending : members.Pairwise fun a b => Utf8.Precedes a.1 b.1) :
    Gathers members (members.filterMap ofMember?) := by
  refine ⟨_, List.filter_sublist, ?_, ascending.sublist List.filter_sublist, forall₂_tells members⟩
  intro member among
  rw [List.mem_filter, isSome_ofMember?]
  exact and_iff_right among

end LocalTx

namespace LocalTxView

open LocalTx

variable {members : List (String × Json)}

/-- The view has each hash that some name writes, once, and the entry is what stands under the
name that is last among these by its bytes. -/
structure KeepsLast (members : List (String × Json)) (view : LocalTxView) : Prop where
  distinct : view.hashes.Nodup
  hashes : ∀ hash, hash ∈ view.hashes ↔ ∃ member ∈ members, Hex.Writes member.1 hash.bytes
  entries : ∀ tx, tx ∈ view.entries ↔ ∃ member ∈ members, Tells member tx ∧
    ∀ other ∈ members, Hex.Writes other.1 tx.hash.bytes →
      other = member ∨ Utf8.Precedes other.1 member.1

theorem mem_map_hash_iff {hash : Hash} :
    hash ∈ (members.filterMap ofMember?).map LocalTx.hash ↔
      ∃ member ∈ members, Hex.Writes member.1 hash.bytes := by
  constructor
  · intro named
    obtain ⟨tx, among, rfl⟩ := List.mem_map.mp named
    obtain ⟨member, listed, read⟩ := List.mem_filterMap.mp among
    exact ⟨member, listed, (tells_of_ofMember? read).hash⟩
  · rintro ⟨member, listed, written⟩
    exact List.mem_map.mpr
      ⟨_, List.mem_filterMap.mpr ⟨member, listed, ofMember?_of_writes written⟩, rfl⟩

/-- Among names in order, behind all others means last. -/
theorem lastUnder_iff_precedes (ascending : members.Pairwise fun a b => Utf8.Precedes a.1 b.1)
    {tx : LocalTx} :
    LastUnder (members.filterMap ofMember?) tx.hash tx ↔ ∃ member ∈ members, Tells member tx ∧
      ∀ other ∈ members, Hex.Writes other.1 tx.hash.bytes →
        other = member ∨ Utf8.Precedes other.1 member.1 := by
  rw [lastUnder_filterMap_iff]
  constructor
  · rintro ⟨before, member, after, rfl, told, -, last⟩
    refine ⟨member, by simp, told, ?_⟩
    intro other among written
    rcases List.mem_append.mp among with earlier | later
    · exact .inr ((List.pairwise_append.mp ascending).2.2 other earlier member (by simp))
    · rcases List.mem_cons.mp later with same | behind
      · exact .inl same
      · exact absurd written (last other behind)
  · rintro ⟨member, among, told, greatest⟩
    obtain ⟨before, after, rfl⟩ := List.append_of_mem among
    refine ⟨before, member, after, rfl, told, rfl, ?_⟩
    intro later behind written
    have follows : Utf8.Precedes member.1 later.1 :=
      (List.pairwise_cons.mp (List.pairwise_append.mp ascending).2.1).1 later behind
    rcases greatest later (by simp [behind]) written with rfl | precedes
    · exact follows.asymm follows
    · exact follows.asymm precedes

theorem keepsLast_reconcile (ascending : members.Pairwise fun a b => Utf8.Precedes a.1 b.1) :
    KeepsLast members (empty.reconcile (members.filterMap ofMember?)).2 where
  distinct := nodup_reconcile nodup_empty _
  hashes hash := by rw [mem_hashes_reconcile nodup_empty, mem_map_hash_iff]
  entries tx := by rw [mem_reconcile_iff nodup_empty, lastUnder_iff_precedes ascending]

/-- Every object is read as a list of transactions, and an empty view takes from it, for each
hash, what stands under the last name that writes it. -/
theorem fetched_view_keeps_last (ordered : (Json.obj members).ascends = true) :
    ∃ txs, fetched (.ok (.obj members)) = .ok txs ∧ Gathers members txs ∧
      KeepsLast members (empty.reconcile txs).2 := by
  have ascending := precedes_of_ascends ordered
  exact ⟨_, rfl, gathers_filterMap ascending, keepsLast_reconcile ascending⟩

def aliases : List (String × Json) :=
  let digits (c : Char) : String := String.ofList (List.replicate 64 c)
  [("0xa", .null),
    ("0x" ++ digits 'a', .obj [("status", .str "pending")]),
    (digits 'A', .obj [("transaction", .obj [("blockNumber", .str "0x10")])]),
    (digits 'a', .obj [("status", .str "mined"),
      ("transaction", .obj [("blockNumber", .str "0x1f")])])]

theorem aliases_keep_last : (Json.obj aliases).ascends = true ∧
    (∃ txs, fetched (.ok (.obj aliases)) = .ok txs ∧ Gathers aliases txs ∧
      KeepsLast aliases (empty.reconcile txs).2) ∧
    (aliases.filterMap ofMember?).map LocalTx.block = [pendingBlock, 16, 31] ∧
    ((empty.reconcile (aliases.filterMap ofMember?)).2.entries.map fun tx =>
      (tx.status, tx.block)) = [("mined", 31)] := by
  have ordered : (Json.obj aliases).ascends = true := by decide +kernel
  exact ⟨ordered, fetched_view_keeps_last ordered, by decide +kernel, by decide +kernel⟩

end LocalTxView

end Countersign
