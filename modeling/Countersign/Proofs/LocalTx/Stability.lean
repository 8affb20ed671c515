import Countersign.Proofs.LocalTx.Recency

set_option autoImplicit false

/-!
# Ties and repeated reports

Recency leaves open how transactions stand that tie. The view then goes by where their
hashes come from: those that it had stand as they stood, even if a report has moved them
to another block, those that are new stand behind them, as they are first named. That
settles the place of every entry. So a report that says nothing new finds the entries
where it would put them, and changes nothing.
-/

namespace Countersign

namespace LocalTx

/-- Where transactions tie, the sort keeps whatever order they were in. -/
theorem ties_sortByRecency {before : LocalTx → LocalTx → Prop} {txs : List LocalTx}
    (ordered : txs.Pairwise before) :
    (sortByRecency txs).Pairwise fun a b => recency a.block = recency b.block → before a b := by
  rw [List.pairwise_iff_forall_sublist]
  intro a b together tie
  have tied : [a, b].Sublist ((sortByRecency txs).filter (recency ·.block == recency b.block)) := by
    simpa [tie] using together.filter (recency ·.block == recency b.block)
  rw [filter_sortByRecency] at tied
  exact List.pairwise_iff_forall_sublist.mp (ordered.filter _) tied

end LocalTx

namespace LocalTxView

open LocalTx

/-- Which of two hashes comes first where their transactions tie. -/
inductive Earlier (view : LocalTxView) (report : List LocalTx) (a b : Hash) : Prop where
  | kept (first : a ∈ view.hashes) (second : b ∈ view.hashes)
      (before : view.hashes.idxOf a < view.hashes.idxOf b)
  | keptFirst (old : a ∈ view.hashes) (new : b ∉ view.hashes)
  | arrived (first : a ∉ view.hashes) (second : b ∉ view.hashes)
      (before : (report.map LocalTx.hash).idxOf a < (report.map LocalTx.hash).idxOf b)

instance (view : LocalTxView) (report : List LocalTx) (a b : Hash) :
    Decidable (Earlier view report a b) :=
  decidable_of_iff
    ((a ∈ view.hashes ∧ b ∈ view.hashes ∧ view.hashes.idxOf a < view.hashes.idxOf b) ∨
      (a ∈ view.hashes ∧ b ∉ view.hashes) ∨
      (a ∉ view.hashes ∧ b ∉ view.hashes ∧
        (report.map LocalTx.hash).idxOf a < (report.map LocalTx.hash).idxOf b))
    ⟨fun
      | .inl ⟨first, second, before⟩ => .kept first second before
      | .inr (.inl ⟨old, new⟩) => .keptFirst old new
      | .inr (.inr ⟨first, second, before⟩) => .arrived first second before,
    fun
      | .kept first second before => .inl ⟨first, second, before⟩
      | .keptFirst old new => .inr (.inl ⟨old, new⟩)
      | .arrived first second before => .inr (.inr ⟨first, second, before⟩)⟩

theorem Earlier.asymm {view : LocalTxView} {report : List LocalTx} {a b : Hash}
    (one : Earlier view report a b) (other : Earlier view report b a) : False := by
  cases one <;> cases other <;> grind

/-- Before it is put in order a view has what it keeps as it was and the rest behind it. -/
theorem merged_pairwise {view : LocalTxView} (distinct : view.hashes.Nodup)
    (report : List LocalTx) :
    (view.merged report).Pairwise fun a b => Earlier view report a.hash b.hash := by
  have places : view.hashes.Pairwise fun a b => view.hashes.idxOf a < view.hashes.idxOf b := by
    rw [List.pairwise_iff_getElem]
    intro i j _ _ before
    rwa [distinct.idxOf_getElem, distinct.idxOf_getElem]
  suffices ((view.merged report).map LocalTx.hash).Pairwise (Earlier view report) from
    List.pairwise_map.mp this
  rw [merged_hashes, List.pairwise_append]
  refine ⟨?_, ?_, ?_⟩
  · apply (places.filter _).imp_of_mem
    intro a b inA inB before
    exact .kept (List.mem_of_mem_filter inA) (List.mem_of_mem_filter inB) before
  · apply ((hashes_ascend report).filter _).imp_of_mem
    intro a b inA inB before
    exact .arrived (by simpa using (List.mem_filter.mp inA).2)
      (by simpa using (List.mem_filter.mp inB).2) before
  · intro a inA b inB
    exact .keptFirst (List.mem_of_mem_filter inA) (by simpa using (List.mem_filter.mp inB).2)

/-- How the entries stand that a report leaves in a view. -/
structure Arranged (view : LocalTxView) (report entries : List LocalTx) : Prop where
  distinct : (entries.map LocalTx.hash).Nodup
  /-- What is reported is there, old or new, and nothing else, as it is last reported. -/
  last : ∀ tx, tx ∈ entries ↔ LastUnder report tx.hash tx
  descending : entries.Pairwise fun a b => recency b.block ≤ recency a.block
  ties : entries.Pairwise fun a b =>
    recency a.block = recency b.block → Earlier view report a.hash b.hash

theorem arranged_reconcile {view : LocalTxView} (distinct : view.hashes.Nodup)
    (report : List LocalTx) : Arranged view report (view.reconcile report).2.entries where
  distinct := nodup_reconcile distinct report
  last _ := mem_reconcile_iff distinct
  descending := by
    rw [entries_reconcile distinct]
    exact sortByRecency_pairwise _
  ties := by
    rw [entries_reconcile distinct]
    exact ties_sortByRecency (merged_pairwise distinct report)

/-- Recency and, where it ties, the origin of the hashes leave no choice. -/
theorem Arranged.unique {view : LocalTxView} {report one other : List LocalTx}
    (first : Arranged view report one) (second : Arranged view report other) : one = other := by
  have same : one.Perm other := by
    rw [List.perm_ext_iff_of_nodup first.distinct.of_map second.distinct.of_map]
    intro tx
    rw [first.last, second.last]
  apply List.Perm.eq_of_pairwise _ (first.descending.and first.ties)
    (second.descending.and second.ties) same
  rintro a b - - ⟨newer, before⟩ ⟨older, after⟩
  have tie : recency a.block = recency b.block := UInt64.le_antisymm older newer
  exact ((before tie).asymm (after tie.symm)).elim

/-- After any reports, one more leaves the surviving and the new entries, the most recent
first. Where two tie, survivors stand as they stood, before the new ones, and new ones stand
as the report first names them. There is only one such list. -/
theorem ties_keep_their_order (reports : List (List LocalTx)) (report entries : List LocalTx) :
    let view := empty.follow reports
    Arranged view report entries ↔ (view.reconcile report).2.entries = entries := by
  intro view
  have distinct : view.hashes.Nodup := nodup_follow_empty reports
  constructor
  · intro arranged
    exact (arranged_reconcile distinct report).unique arranged
  · rintro rfl
    exact arranged_reconcile distinct report

/-- A transaction of a block, under a hash that is one byte again and again. -/
def marked (byte : UInt8) (status : String) (block : UInt64) : LocalTx :=
  ⟨⟨List.replicate 32 byte, List.length_replicate⟩, status, block⟩

/-- The third transaction moves to the block of the second, and two new ones join them there.
The fourth is reported twice, first before the fifth and then behind it. -/
theorem moved_and_repeated_arranged :
    let known := [marked 1 "mined" 7, marked 2 "mined" 5, marked 3 "mined" 4]
    let report := [marked 4 "pending" pendingBlock, marked 3 "mined" 5, marked 2 "mined" 5,
      marked 5 "mined" 5, marked 4 "mined" 5, marked 6 "pending" pendingBlock]
    let entries := [marked 6 "pending" pendingBlock, marked 2 "mined" 5, marked 3 "mined" 5,
      marked 4 "mined" 5, marked 5 "mined" 5]
    let view := empty.follow [known]
    Arranged view report entries ∧ (view.reconcile report).2.entries = entries := by
  intro known report entries view
  have taken : view = ⟨known⟩ := follow_of_merged (by decide +kernel) (by decide +kernel)
  have arranged : Arranged view report entries := by
    rw [taken]
    have there : ∀ tx ∈ entries, reported? report tx.hash = some tx := by decide +kernel
    have only : ∀ tx ∈ report, reported? report tx.hash = some tx → tx ∈ entries := by
      decide +kernel
    refine ⟨by decide +kernel, ?_, by decide +kernel, by decide +kernel⟩
    intro tx
    rw [← reported?_eq_some_iff]
    exact ⟨there tx, fun found => only tx (mem_of_reported? found) found⟩
  exact ⟨arranged, (ties_keep_their_order [known] report entries).mp arranged⟩

/-! ### Reports that say nothing new -/

theorem refreshed_of_reported {report : List LocalTx} {tx : LocalTx}
    (told : reported? report tx.hash = some tx) : refreshed report tx = tx := by
  rw [refreshed, told]
  rfl

theorem surviving_of_reported {view : LocalTxView} {report : List LocalTx}
    (told : ∀ tx ∈ view.entries, reported? report tx.hash = some tx) :
    view.surviving report = view.entries := by
  rw [surviving, List.filter_eq_self]
  intro tx membership
  rw [told tx membership]
  rfl

theorem arriving_of_known {view : LocalTxView} {report : List LocalTx}
    (known : ∀ hash ∈ report.map LocalTx.hash, hash ∈ view.hashes) :
    view.arriving report = [] := by
  rw [← List.map_eq_nil_iff, arriving_hashes, List.filter_eq_nil_iff]
  intro hash named
  simpa using known hash (mem_hashes.mp named)

/-- A report of exactly what is in a view finds every entry in its place. -/
theorem reconcile_of_under? {view : LocalTxView} (distinct : view.hashes.Nodup)
    (sorted : view.entries.Pairwise fun a b => recency b.block ≤ recency a.block)
    {report : List LocalTx} (same : ∀ hash, view.under? hash = reported? report hash) :
    view.reconcile report = (⟨0, 0, 0⟩, view) := by
  have told : ∀ tx ∈ view.entries, reported? report tx.hash = some tx := by
    intro tx membership
    rw [← same]
    exact (under?_eq_some_iff distinct).mpr ⟨membership, rfl⟩
  have known : ∀ hash ∈ report.map LocalTx.hash, hash ∈ view.hashes := by
    intro hash named
    rw [← isSome_reported?, ← same, under?, List.find?_isSome] at named
    obtain ⟨tx, membership, found⟩ := named
    exact List.mem_map.mpr ⟨tx, membership, eq_of_beq found⟩
  have fresh : ∀ tx ∈ view.entries, refreshed report tx = tx :=
    fun tx membership => refreshed_of_reported (told tx membership)
  have updated : view.entries.countP (fun tx => refreshed report tx != tx) = 0 := by
    rw [List.countP_eq_zero]
    intro tx membership
    simp [fresh tx membership]
  have order : sortByRecency (view.entries.map (refreshed report)) = view.entries := by
    rw [List.map_congr_left fresh, List.map_id', sortByRecency_of_pairwise sorted]
  simp only [reconcile_of_nodup distinct, merged, surviving_of_reported told,
    arriving_of_known known, updated, List.append_nil, order, List.length_nil, Nat.sub_self]

/-- After any reports and one more, a further report changes neither an entry nor its place
and is summed up as no change, exactly if it has the same last transactions under the same
hashes as the one before. -/
theorem unchanged_iff_same_last (reports : List (List LocalTx)) (first second : List LocalTx) :
    let view := ((empty.follow reports).reconcile first).2
    view.reconcile second = (⟨0, 0, 0⟩, view) ↔
      ∀ hash tx, LastUnder first hash tx ↔ LastUnder second hash tx := by
  intro view
  have before : (empty.follow reports).hashes.Nodup := nodup_follow_empty reports
  have distinct : view.hashes.Nodup := nodup_reconcile before first
  have entries : ∀ hash, view.under? hash = reported? first hash := under?_reconcile before first
  simp only [← reported?_eq_some_iff]
  constructor
  · intro unchanged hash tx
    rw [← entries, ← under?_reconcile distinct second, unchanged]
  · intro same
    apply reconcile_of_under? distinct (arranged_reconcile before first).descending
    intro hash
    rw [entries]
    exact Option.ext (same hash)

end LocalTxView

end Countersign
