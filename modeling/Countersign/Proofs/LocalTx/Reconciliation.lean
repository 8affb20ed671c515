import Countersign.Proofs.LocalTx.Passes
import Mathlib.Data.Finset.Card
import Mathlib.Data.Finset.Dedup

set_option autoImplicit false

/-!
# The view holds the last report

Whatever the reports were before, the view has one entry for each hash of the last one,
and that is the last transaction reported under it. The summary counts hashes: those that
came, those that went and those whose entry changed. It counts them right because no hash
stands twice in a view, which in turn every report leaves so.
-/

namespace Countersign

namespace LocalTx

def LastUnder (report : List LocalTx) (hash : Hash) (tx : LocalTx) : Prop :=
  ∃ before after, report = before ++ tx :: after ∧ tx.hash = hash ∧
    ∀ later ∈ after, later.hash ≠ hash

theorem reported?_eq_some_iff {report : List LocalTx} {hash : Hash} {tx : LocalTx} :
    reported? report hash = some tx ↔ LastUnder report hash tx := by
  unfold reported? LastUnder
  rw [List.find?_eq_some_iff_append]
  constructor
  · rintro ⟨same, before, after, split, earlier⟩
    refine ⟨after.reverse, before.reverse, ?_, by simpa using same, ?_⟩
    · rw [← List.reverse_reverse report, split]
      simp
    · intro later membership
      simpa using earlier later (List.mem_reverse.mp membership)
  · rintro ⟨before, after, rfl, same, differ⟩
    refine ⟨by simpa using same, after.reverse, before.reverse, by simp, ?_⟩
    intro later membership
    simpa using differ later (List.mem_reverse.mp membership)

theorem hash_of_reported? {report : List LocalTx} {hash : Hash} {tx : LocalTx}
    (found : reported? report hash = some tx) : tx.hash = hash := by
  obtain ⟨-, -, -, same, -⟩ := reported?_eq_some_iff.mp found
  exact same

end LocalTx

namespace LocalTxView

open LocalTx

def under? (view : LocalTxView) (hash : Hash) : Option LocalTx :=
  view.entries.find? (·.hash == hash)

theorem under?_eq_some_iff {view : LocalTxView} (distinct : view.hashes.Nodup) {hash : Hash}
    {tx : LocalTx} : view.under? hash = some tx ↔ tx ∈ view.entries ∧ tx.hash = hash := by
  constructor
  · intro found
    exact ⟨List.mem_of_find?_eq_some found, by simpa using List.find?_some found⟩
  · rintro ⟨membership, rfl⟩
    obtain ⟨other, found⟩ : ∃ other, view.under? tx.hash = some other := by
      rw [← Option.isSome_iff_exists, under?, List.find?_isSome]
      exact ⟨tx, membership, by simp⟩
    have same : other.hash = tx.hash := by simpa using List.find?_some found
    rw [found, List.inj_on_of_nodup_map distinct (List.mem_of_find?_eq_some found) membership same]

/-! ### The hashes of a view -/

@[simp]
theorem refreshed_hash (report : List LocalTx) (tx : LocalTx) :
    (refreshed report tx).hash = tx.hash := by
  unfold refreshed
  cases found : reported? report tx.hash with
  | none => rfl
  | some fresh => exact hash_of_reported? found

theorem arriving_hashes (view : LocalTxView) (report : List LocalTx) :
    (view.arriving report).map LocalTx.hash =
      (LocalTx.hashes report).filter (· ∉ view.hashes) := by
  have fresh : ∀ named : List Hash, (∀ hash ∈ named, hash ∈ report.map LocalTx.hash) →
      (named.filterMap (reported? report)).map LocalTx.hash = named := by
    intro named all
    induction named with
    | nil => rfl
    | cons hash rest ih =>
      obtain ⟨tx, found⟩ := Option.isSome_iff_exists.mp (isSome_reported?.mpr (all hash (by simp)))
      rw [List.filterMap_cons_some found, List.map_cons, hash_of_reported? found,
        ih fun other later => all other (by simp [later])]
  rw [arriving, fresh]
  · simp
  · intro hash membership
    exact mem_hashes.mp (List.mem_of_mem_filter membership)

theorem entries_perm {view : LocalTxView} (distinct : view.hashes.Nodup) (report : List LocalTx) :
    (view.reconcile report).2.entries.Perm (view.merged report) := by
  rw [entries_reconcile distinct]
  exact List.mergeSort_perm _ _

theorem merged_hashes (view : LocalTxView) (report : List LocalTx) :
    (view.merged report).map LocalTx.hash =
      view.hashes.filter (· ∈ report.map LocalTx.hash) ++
        (LocalTx.hashes report).filter (· ∉ view.hashes) := by
  have kept : ((view.surviving report).map (refreshed report)).map LocalTx.hash =
      (view.surviving report).map LocalTx.hash := by
    simp [Function.comp_def]
  rw [merged, List.map_append, kept, surviving_hashes, arriving_hashes]

theorem nodup_reconcile {view : LocalTxView} (distinct : view.hashes.Nodup)
    (report : List LocalTx) : (view.reconcile report).2.hashes.Nodup := by
  rw [hashes, ((entries_perm distinct report).map LocalTx.hash).nodup_iff, merged_hashes,
    List.nodup_append]
  refine ⟨distinct.filter _, (nodup_hashes report).filter _, ?_⟩
  rintro hash old _ new rfl
  simp only [List.mem_filter, decide_eq_true_eq] at old new
  exact new.2 old.1

theorem mem_hashes_reconcile {view : LocalTxView} (distinct : view.hashes.Nodup)
    (report : List LocalTx) (hash : Hash) :
    hash ∈ (view.reconcile report).2.hashes ↔ hash ∈ report.map LocalTx.hash := by
  rw [hashes, ((entries_perm distinct report).map LocalTx.hash).mem_iff, merged_hashes]
  simp only [List.mem_append, List.mem_filter, decide_eq_true_eq, mem_hashes]
  tauto

/-- Every entry is the last that was reported under its hash. -/
theorem reported?_of_mem {view : LocalTxView} (distinct : view.hashes.Nodup)
    {report : List LocalTx} {tx : LocalTx}
    (membership : tx ∈ (view.reconcile report).2.entries) :
    reported? report tx.hash = some tx := by
  rw [(entries_perm distinct report).mem_iff, merged, List.mem_append] at membership
  rcases membership with survives | arrives
  · obtain ⟨old, kept, rfl⟩ := List.mem_map.mp survives
    obtain ⟨fresh, found⟩ := Option.isSome_iff_exists.mp (List.mem_filter.mp kept).2
    rw [refreshed_hash, refreshed, found]
    rfl
  · obtain ⟨hash, -, found⟩ := List.mem_filterMap.mp arrives
    rw [hash_of_reported? found, found]

theorem under?_reconcile {view : LocalTxView} (distinct : view.hashes.Nodup)
    (report : List LocalTx) (hash : Hash) :
    (view.reconcile report).2.under? hash = reported? report hash := by
  apply Option.ext
  intro tx
  rw [under?_eq_some_iff (nodup_reconcile distinct report)]
  constructor
  · rintro ⟨membership, rfl⟩
    exact reported?_of_mem distinct membership
  · intro found
    have named : hash ∈ (view.reconcile report).2.hashes := by
      rw [mem_hashes_reconcile distinct, ← isSome_reported?, found]
      rfl
    obtain ⟨other, membership, same⟩ := List.mem_map.mp named
    have last := reported?_of_mem distinct membership
    rw [same, found] at last
    cases last
    exact ⟨membership, same⟩

theorem mem_reconcile_iff {view : LocalTxView} (distinct : view.hashes.Nodup)
    {report : List LocalTx} {tx : LocalTx} :
    tx ∈ (view.reconcile report).2.entries ↔ LastUnder report tx.hash tx := by
  rw [← reported?_eq_some_iff, ← under?_reconcile distinct,
    under?_eq_some_iff (nodup_reconcile distinct report)]
  exact (and_iff_left rfl).symm

/-! ### Counting -/

theorem length_arriving (view : LocalTxView) (report : List LocalTx) :
    (view.arriving report).length =
      ((report.map LocalTx.hash).toFinset \ view.hashes.toFinset).card := by
  have came : (report.map LocalTx.hash).toFinset \ view.hashes.toFinset =
      ((LocalTx.hashes report).filter (· ∉ view.hashes)).toFinset := by
    ext hash
    simp only [Finset.mem_sdiff, List.mem_toFinset, List.mem_filter, decide_eq_true_eq, mem_hashes]
  rw [came, List.toFinset_card_of_nodup ((nodup_hashes report).filter _), ← arriving_hashes,
    List.length_map]

theorem length_surviving {view : LocalTxView} (distinct : view.hashes.Nodup)
    (report : List LocalTx) :
    (view.surviving report).length +
      (view.hashes.toFinset \ (report.map LocalTx.hash).toFinset).card = view.entries.length := by
  have stayed : (view.surviving report).length =
      (view.hashes.toFinset ∩ (report.map LocalTx.hash).toFinset).card := by
    have same : view.hashes.toFinset ∩ (report.map LocalTx.hash).toFinset =
        (view.hashes.filter (· ∈ report.map LocalTx.hash)).toFinset := by
      ext hash
      simp only [Finset.mem_inter, List.mem_toFinset, List.mem_filter, decide_eq_true_eq]
    rw [same, List.toFinset_card_of_nodup (distinct.filter _), ← surviving_hashes, List.length_map]
  rw [stayed, Finset.card_inter_add_card_sdiff, List.toFinset_card_of_nodup distinct, hashes,
    List.length_map]

theorem countP_surviving {view : LocalTxView} (distinct : view.hashes.Nodup)
    (report : List LocalTx) :
    (view.surviving report).countP (fun tx => refreshed report tx != tx) =
      ((view.hashes.toFinset ∩ (report.map LocalTx.hash).toFinset).filter fun hash =>
        view.under? hash ≠ (view.reconcile report).2.under? hash).card := by
  have changed : ((view.hashes.toFinset ∩ (report.map LocalTx.hash).toFinset).filter fun hash =>
      view.under? hash ≠ (view.reconcile report).2.under? hash) =
      (((view.surviving report).filter fun tx => refreshed report tx != tx).map
        LocalTx.hash).toFinset := by
    ext hash
    simp only [Finset.mem_filter, Finset.mem_inter, List.mem_toFinset, under?_reconcile distinct,
      List.mem_map (l := List.filter _ _), List.mem_filter, surviving]
    constructor
    · rintro ⟨⟨known, named⟩, differs⟩
      obtain ⟨tx, membership, rfl⟩ := List.mem_map.mp known
      obtain ⟨fresh, found⟩ := Option.isSome_iff_exists.mp (isSome_reported?.mpr named)
      refine ⟨tx, ⟨⟨membership, by simp [found]⟩, ?_⟩, rfl⟩
      rw [(under?_eq_some_iff distinct).mpr ⟨membership, rfl⟩, found] at differs
      simp only [refreshed, found, Option.getD_some, bne_iff_ne]
      exact fun same => differs (congrArg some same.symm)
    · rintro ⟨tx, ⟨⟨membership, named⟩, differs⟩, rfl⟩
      obtain ⟨fresh, found⟩ := Option.isSome_iff_exists.mp named
      refine ⟨⟨List.mem_map_of_mem membership, isSome_reported?.mp named⟩, ?_⟩
      rw [(under?_eq_some_iff distinct).mpr ⟨membership, rfl⟩, found]
      simp only [refreshed, found, Option.getD_some, bne_iff_ne] at differs
      exact fun same => differs (Option.some.inj same).symm
  have once : (((view.surviving report).filter fun tx => refreshed report tx != tx).map
      LocalTx.hash).Nodup :=
    distinct.sublist ((List.filter_sublist.trans List.filter_sublist).map _)
  rw [changed, List.toFinset_card_of_nodup once, List.length_map, List.countP_eq_length_filter]

/-! ### Reports one after the other -/

def follow (view : LocalTxView) (reports : List (List LocalTx)) : LocalTxView :=
  reports.foldl (fun view report => (view.reconcile report).2) view

theorem nodup_follow {view : LocalTxView} (distinct : view.hashes.Nodup)
    (reports : List (List LocalTx)) : (view.follow reports).hashes.Nodup := by
  induction reports generalizing view with
  | nil => exact distinct
  | cons report rest ih => exact ih (nodup_reconcile distinct report)

theorem nodup_empty : empty.hashes.Nodup := List.nodup_nil

theorem nodup_follow_empty (reports : List (List LocalTx)) :
    (empty.follow reports).hashes.Nodup := nodup_follow nodup_empty reports

/-- After any reports, one more leaves one entry for each of its hashes, the last reported
under it, and the summary tells how many hashes came, went and changed. -/
theorem reconcile_accounts_for_report (reports : List (List LocalTx)) (report : List LocalTx) :
    let view := empty.follow reports
    let summary := (view.reconcile report).1
    let next := (view.reconcile report).2
    let reported := (report.map LocalTx.hash).toFinset
    next.hashes.Nodup ∧
      next.hashes.toFinset = reported ∧
      (∀ hash tx, next.under? hash = some tx ↔ LastUnder report hash tx) ∧
      summary.added = (reported \ view.hashes.toFinset).card ∧
      summary.removed = (view.hashes.toFinset \ reported).card ∧
      summary.updated = ((view.hashes.toFinset ∩ reported).filter fun hash =>
        view.under? hash ≠ next.under? hash).card ∧
      summary.removed ≤ view.entries.length ∧
      next.entries.length = view.entries.length - summary.removed + summary.added := by
  intro view summary next reported
  have distinct : view.hashes.Nodup := nodup_follow_empty reports
  have kept : (view.surviving report).length + (view.hashes.toFinset \ reported).card =
      view.entries.length := length_surviving distinct report
  have counted : summary = ⟨(view.arriving report).length,
      view.entries.length - (view.surviving report).length,
      (view.surviving report).countP fun tx => refreshed report tx != tx⟩ :=
    congrArg Prod.fst (reconcile_of_nodup distinct report)
  have removed : summary.removed = (view.hashes.toFinset \ reported).card := by
    have gone : summary.removed = view.entries.length - (view.surviving report).length := by
      rw [counted]
    omega
  have total : next.entries.length =
      (view.surviving report).length + (view.arriving report).length := by
    rw [(entries_perm distinct report).length_eq, merged, List.length_append, List.length_map]
  have added : summary.added = (view.arriving report).length := by rw [counted]
  refine ⟨nodup_reconcile distinct report, ?_, ?_, added.trans (length_arriving view report),
    removed, ?_, ?_, ?_⟩
  · ext hash
    rw [List.mem_toFinset, List.mem_toFinset, mem_hashes_reconcile distinct]
  · intro hash tx
    rw [under?_reconcile distinct, reported?_eq_some_iff]
  · rw [counted]
    exact countP_surviving distinct report
  · omega
  · omega

end LocalTxView

end Countersign
