import Countersign.Proofs.LocalTx.Reconciliation

set_option autoImplicit false

/-!
# Pending transactions and the last block

A view is sorted by recency, where pending counts as the last number that a block can
have. So mined transactions stand in the order of their blocks, the latest first, and
pending ones stand before all of them but those of that last block, with which they tie.
The sort is stable, and what ties stays as it was: a transaction of the last block that
came before a pending one stands before it.
-/

namespace Countersign

namespace LocalTx

def lastBlock : UInt64 := UInt64.ofNat (UInt64.size - 1)

theorem le_lastBlock (block : UInt64) : block ≤ lastBlock := by
  rw [UInt64.le_iff_toNat_le]
  exact Nat.le_of_lt_succ block.toNat_lt

theorem recency_of_pending {tx : LocalTx} (pending : tx.isPending = true) :
    recency tx.block = lastBlock := if_pos (eq_of_beq pending)

theorem recency_of_mined {tx : LocalTx} (mined : tx.isPending = false) :
    recency tx.block = tx.block := if_neg (beq_eq_false_iff_ne.mp mined)

/-- Pending transactions tie with those of the last block. -/
theorem recency_eq_lastBlock_iff {tx : LocalTx} :
    recency tx.block = lastBlock ↔ tx.isPending = true ∨ tx.block = lastBlock := by
  cases pending : tx.isPending with
  | true => simp [recency_of_pending pending]
  | false => simp [recency_of_mined pending]

theorem mined_of_lastBlock {tx : LocalTx} (last : tx.block = lastBlock) : tx.isPending = false := by
  rw [isPending, last]
  rfl

/-! ### The sort -/

theorem order_trans (a b c : LocalTx) (first : decide (recency b.block ≤ recency a.block) = true)
    (second : decide (recency c.block ≤ recency b.block) = true) :
    decide (recency c.block ≤ recency a.block) = true := by
  rw [decide_eq_true_eq] at first second ⊢
  exact UInt64.le_trans second first

theorem order_total (a b : LocalTx) :
    (decide (recency b.block ≤ recency a.block) || decide (recency a.block ≤ recency b.block)) =
      true := by
  rw [Bool.or_eq_true, decide_eq_true_eq, decide_eq_true_eq]
  exact UInt64.le_total _ _

theorem sortByRecency_pairwise (txs : List LocalTx) :
    (sortByRecency txs).Pairwise fun a b => recency b.block ≤ recency a.block := by
  have sorted : (sortByRecency txs).Pairwise fun a b =>
      decide (recency b.block ≤ recency a.block) = true :=
    List.pairwise_mergeSort order_trans order_total txs
  simpa only [decide_eq_true_eq] using sorted

theorem sortByRecency_of_pairwise {txs : List LocalTx}
    (sorted : txs.Pairwise fun a b => recency b.block ≤ recency a.block) :
    sortByRecency txs = txs := by
  apply List.mergeSort_of_pairwise
  simpa only [decide_eq_true_eq] using sorted

/-- What ties keeps the order that it had. -/
theorem filter_sortByRecency (txs : List LocalTx) (key : UInt64) :
    (sortByRecency txs).filter (recency ·.block == key) = txs.filter (recency ·.block == key) := by
  have ties : (txs.filter (recency ·.block == key)).Pairwise fun a b =>
      decide (recency b.block ≤ recency a.block) = true := by
    apply List.pairwise_of_forall_mem_list
    intro a inA b inB
    rw [eq_of_beq (List.mem_filter.mp inA).2, eq_of_beq (List.mem_filter.mp inB).2]
    exact decide_eq_true (UInt64.le_refl key)
  have kept : (txs.filter (recency ·.block == key)).Sublist (sortByRecency txs) :=
    List.sublist_mergeSort order_trans order_total ties List.filter_sublist
  -- a part of the sorted list that is as long as what is left of it when only ties are kept
  have within := kept.filter (recency ·.block == key)
  simp only [List.filter_filter, Bool.and_self] at within
  have long : (txs.filter (recency ·.block == key)).length =
      ((sortByRecency txs).filter (recency ·.block == key)).length :=
    ((List.mergeSort_perm txs _).filter _).length_eq.symm
  exact (within.eq_of_length long).symm

/-! ### Pending ones and the last block -/

def PendingFirst (txs : List LocalTx) : Prop :=
  txs.Pairwise fun a b => b.isPending = true → a.isPending = true

def LastBlockBehind (txs : List LocalTx) : Prop :=
  txs.Pairwise fun a b => b.isPending = true → a.block ≠ lastBlock

theorem mined_sortByRecency (txs : List LocalTx) :
    ((sortByRecency txs).filter (!·.isPending)).Pairwise fun a b => b.block ≤ a.block := by
  have mined : ∀ {tx}, tx ∈ (sortByRecency txs).filter (!·.isPending) →
      recency tx.block = tx.block := by
    intro tx membership
    exact recency_of_mined (by simpa using (List.mem_filter.mp membership).2)
  apply ((sortByRecency_pairwise txs).filter _).imp_of_mem
  intro a b inA inB newer
  rwa [mined inA, mined inB] at newer

/-- Nothing but the last block is as recent as what is pending. -/
theorem before_pending_sortByRecency (txs : List LocalTx) :
    (sortByRecency txs).Pairwise fun a b =>
      b.isPending = true → a.isPending = true ∨ a.block = lastBlock := by
  apply (sortByRecency_pairwise txs).imp
  intro a b newer pending
  rw [recency_of_pending pending] at newer
  exact recency_eq_lastBlock_iff.mp (UInt64.le_antisymm (le_lastBlock _) newer)

theorem pendingFirst_iff_lastBlockBehind (txs : List LocalTx) :
    PendingFirst (sortByRecency txs) ↔ LastBlockBehind (sortByRecency txs) := by
  constructor
  · intro first
    apply first.imp
    intro a b before pending last
    rw [mined_of_lastBlock last] at before
    exact Bool.false_ne_true (before pending)
  · intro behind
    apply ((before_pending_sortByRecency txs).and behind).imp
    rintro a b ⟨before, other⟩ pending
    exact (before pending).resolve_right (other pending)

/-- Only the transactions that tie with what is pending have a say. -/
theorem lastBlockBehind_filter (txs : List LocalTx) :
    LastBlockBehind (txs.filter (recency ·.block == lastBlock)) ↔ LastBlockBehind txs := by
  unfold LastBlockBehind
  rw [List.pairwise_filter]
  apply List.Pairwise.iff
  intro a b
  simp only [beq_iff_eq, recency_eq_lastBlock_iff]
  tauto

theorem pendingFirst_sortByRecency_iff (txs : List LocalTx) :
    PendingFirst (sortByRecency txs) ↔ LastBlockBehind txs := by
  rw [pendingFirst_iff_lastBlockBehind, ← lastBlockBehind_filter, filter_sortByRecency,
    lastBlockBehind_filter]

theorem lastBlockBehind_of_forall {txs : List LocalTx} (other : ∀ tx ∈ txs, tx.block ≠ lastBlock) :
    LastBlockBehind txs :=
  List.pairwise_of_forall_mem_list fun tx membership _ _ _ => other tx membership

end LocalTx

namespace LocalTxView

open LocalTx

/-- After any reports, one more leaves the mined entries in the order of their blocks, the
latest first. Pending entries come before all mined ones unless one of the last block stood
before a pending one when the view was put in order, and before all of other blocks in any
case. -/
theorem pending_first_iff_lastBlock_behind (reports : List (List LocalTx))
    (report : List LocalTx) :
    let view := empty.follow reports
    let next := (view.reconcile report).2
    (next.entries.filter (!·.isPending)).Pairwise (fun a b => b.block ≤ a.block) ∧
      (next.entries.Pairwise fun a b =>
        b.isPending = true → a.isPending = true ∨ a.block = lastBlock) ∧
      (PendingFirst next.entries ↔ LastBlockBehind (view.merged report)) ∧
      ((∀ tx ∈ report, tx.block ≠ lastBlock) → PendingFirst next.entries) := by
  intro view next
  have distinct : view.hashes.Nodup := nodup_follow_empty reports
  have sorted : next.entries = sortByRecency (view.merged report) := entries_reconcile distinct report
  have precise := pendingFirst_sortByRecency_iff (view.merged report)
  rw [sorted]
  refine ⟨mined_sortByRecency _, before_pending_sortByRecency _, precise, ?_⟩
  intro other
  apply precise.mpr
  apply lastBlockBehind_of_forall
  intro tx membership
  have found := reported?_of_mem distinct ((entries_perm distinct report).mem_iff.mpr membership)
  exact other tx (mem_of_reported? found)

/-- A first report in order, each hash once, is taken over as it is. -/
theorem follow_of_merged {report : List LocalTx} (heard : empty.merged report = report)
    (sorted : report.Pairwise fun a b => recency b.block ≤ recency a.block) :
    empty.follow [report] = ⟨report⟩ := by
  change (empty.reconcile report).2 = _
  rw [reconcile_of_nodup nodup_empty, heard, sortByRecency_of_pairwise sorted]

def overtaken (status : String) (block : UInt64) : List LocalTx :=
  [⟨⟨List.replicate 32 1, rfl⟩, status, block⟩,
    ⟨⟨List.replicate 32 2, rfl⟩, "pending", pendingBlock⟩]

/-- One that is mined in the block before the last goes behind what is pending. -/
theorem overtaken_pending_first :
    let view := empty.follow [overtaken "pending" pendingBlock]
    let next := (view.reconcile (overtaken "mined" (lastBlock - 1))).2
    PendingFirst next.entries := by
  apply (pending_first_iff_lastBlock_behind _ _).2.2.2
  decide +kernel

/-- One that is mined in the last block stays before it. -/
theorem overtaken_not_pending_first :
    let view := empty.follow [overtaken "pending" pendingBlock]
    let next := (view.reconcile (overtaken "mined" lastBlock)).2
    ¬ PendingFirst next.entries := by
  intro view next first
  have behind : LastBlockBehind (view.merged (overtaken "mined" lastBlock)) := by
    rw [← pendingFirst_sortByRecency_iff, ← entries_reconcile (nodup_follow_empty _)]
    exact first
  -- all that is known is pending, and so in order as it was reported
  have known : view = ⟨overtaken "pending" pendingBlock⟩ :=
    follow_of_merged (by decide +kernel) (by decide +kernel)
  have merged : view.merged (overtaken "mined" lastBlock) = overtaken "mined" lastBlock := by
    rw [known]
    decide +kernel
  rw [merged] at behind
  exact List.rel_of_pairwise_cons behind (List.mem_singleton_self _) rfl rfl

end LocalTxView

end Countersign
