import Countersign.LocalTx.View
import Mathlib.Data.List.Basic
import Mathlib.Data.List.Induction
import Mathlib.Data.List.Nodup

set_option autoImplicit false

/-!
# A report in one piece

A report goes through a view in passes, and every entry takes what it needs out of the map of
what is reported. No hash stands twice in a view, so nothing is missed by an entry because
another has taken it. All passes together keep the entries that are reported, each as it is
last reported, and append the rest in the order in which it is first named.
-/

namespace Countersign

namespace LocalTx

/-- The last transaction that a report has for a hash. -/
def reported? (report : List LocalTx) (hash : Hash) : Option LocalTx :=
  report.reverse.find? (·.hash == hash)

/-- The hashes of a report, each where it is first named. -/
def hashes (report : List LocalTx) : List Hash := (report.map LocalTx.hash).eraseDups

theorem isSome_reported? {report : List LocalTx} {hash : Hash} :
    (reported? report hash).isSome = true ↔ hash ∈ report.map LocalTx.hash := by
  simp [reported?]

theorem mem_of_reported? {report : List LocalTx} {hash : Hash} {tx : LocalTx}
    (found : reported? report hash = some tx) : tx ∈ report :=
  List.mem_reverse.mp (List.mem_of_find?_eq_some found)

theorem mem_hashes {report : List LocalTx} {hash : Hash} :
    hash ∈ hashes report ↔ hash ∈ report.map LocalTx.hash := by
  rw [hashes, List.mem_eraseDups]

theorem reported?_concat (report : List LocalTx) (tx : LocalTx) (hash : Hash) :
    reported? (report ++ [tx]) hash = if tx.hash = hash then some tx else reported? report hash := by
  rw [reported?, List.reverse_concat, List.find?_cons]
  by_cases same : tx.hash = hash
  · simp [same]
  · simp [beq_false_of_ne same, same, reported?]

theorem hashes_concat (report : List LocalTx) (tx : LocalTx) :
    hashes (report ++ [tx]) =
      if tx.hash ∈ report.map LocalTx.hash then hashes report else hashes report ++ [tx.hash] := by
  rw [hashes, List.map_append, List.eraseDups_append, List.map_singleton, List.removeAll,
    List.filter_singleton]
  by_cases named : tx.hash ∈ report.map LocalTx.hash
  · simp [named, hashes]
  · simp [named, hashes, List.eraseDups_cons]

/-- The hashes stand in the order in which the report first names them. -/
theorem hashes_ascend (report : List LocalTx) :
    (hashes report).Pairwise fun a b =>
      (report.map LocalTx.hash).idxOf a < (report.map LocalTx.hash).idxOf b := by
  induction report using List.reverseRecOn with
  | nil => simp [hashes]
  | append_singleton report tx ih =>
    -- what is named before has the place it had
    have earlier : ∀ hash ∈ hashes report,
        (report.map LocalTx.hash ++ [tx.hash]).idxOf hash = (report.map LocalTx.hash).idxOf hash :=
      fun hash membership => List.idxOf_append_of_mem (mem_hashes.mp membership)
    have kept : (hashes report).Pairwise fun a b =>
        (report.map LocalTx.hash ++ [tx.hash]).idxOf a <
          (report.map LocalTx.hash ++ [tx.hash]).idxOf b := by
      apply ih.imp_of_mem
      intro a b inA inB before
      rwa [earlier a inA, earlier b inB]
    rw [hashes_concat, List.map_append, List.map_singleton]
    split
    · exact kept
    · next fresh =>
      rw [List.pairwise_append]
      refine ⟨kept, List.pairwise_singleton _ _, ?_⟩
      intro hash old new isNew
      rw [List.mem_singleton.mp isNew, earlier hash old, List.idxOf_append_of_notMem fresh]
      exact Nat.lt_add_right _ (List.idxOf_lt_length_of_mem (mem_hashes.mp old))

theorem nodup_hashes (report : List LocalTx) : (hashes report).Nodup := by
  apply (hashes_ascend report).imp
  rintro a _ before rfl
  exact Nat.lt_irrefl _ before

/-! ### The map of a report -/

theorem Incoming.ofReport_concat (report : List LocalTx) (tx : LocalTx) :
    ofReport (report ++ [tx]) = (ofReport report).add tx := by
  simp [ofReport]

theorem Incoming.latest_ofReport (report : List LocalTx) (hash : Hash) :
    (ofReport report).latest[hash]? = reported? report hash := by
  induction report using List.reverseRecOn with
  | nil => simp [ofReport, reported?]
  | append_singleton report tx ih =>
    rw [ofReport_concat, reported?_concat, ← ih, add, Std.ExtTreeMap.getElem?_insert]
    simp only [Std.compare_eq_iff_eq]

theorem Incoming.contains_ofReport (report : List LocalTx) (hash : Hash) :
    (ofReport report).latest.contains hash = (reported? report hash).isSome := by
  rw [Std.ExtTreeMap.contains_eq_isSome_getElem?, latest_ofReport]

theorem Incoming.order_ofReport (report : List LocalTx) :
    (ofReport report).order = hashes report := by
  induction report using List.reverseRecOn with
  | nil => simp [ofReport, hashes]
  | append_singleton report tx ih =>
    rw [ofReport_concat, hashes_concat, ← ih, add]
    simp only [contains_ofReport, isSome_reported?]

end LocalTx

namespace LocalTxView

open LocalTx

/-! ### The passes -/

section Passes

variable {latest : Std.ExtTreeMap Hash LocalTx}

theorem getElem?_erase_of_ne {hash other : Hash} (differ : other ≠ hash) :
    (latest.erase hash)[other]? = latest[other]? := by
  simp only [Std.ExtTreeMap.getElem?_erase, Std.compare_eq_iff_eq]
  exact if_neg differ.symm

/-- What an entry is after the update, if no entry before it has its hash. -/
def renewed (latest : Std.ExtTreeMap Hash LocalTx) (tx : LocalTx) : LocalTx :=
  latest[tx.hash]?.getD tx

/-- Every entry is renewed, and what it has taken is gone. -/
structure Renews (latest : Std.ExtTreeMap Hash LocalTx) (txs : List LocalTx)
    (result : Update) : Prop where
  entries : result.entries = txs.map (renewed latest)
  changed : result.changed = txs.countP fun tx => renewed latest tx != tx
  left : ∀ hash, result.left[hash]? =
    if hash ∈ txs.map LocalTx.hash then none else latest[hash]?

section Steps

variable {tx : LocalTx} {rest : List LocalTx} {later : Update}

theorem Renews.skip (absent : latest[tx.hash]? = none) (behind : Renews latest rest later) :
    Renews latest (tx :: rest) { later with entries := tx :: later.entries } := by
  have same : renewed latest tx = tx := by
    rw [renewed, absent]
    rfl
  refine ⟨?_, ?_, ?_⟩
  · simp [behind.entries, same]
  · simp [behind.changed, same]
  · intro hash
    by_cases own : hash = tx.hash
    · simp [behind.left, own, absent]
    · simp [behind.left, own]

/-- The entries behind have other hashes, so nothing that they take is gone. -/
theorem Renews.take {fresh : LocalTx} (found : latest[tx.hash]? = some fresh)
    (apart : tx.hash ∉ rest.map LocalTx.hash)
    (behind : Renews (latest.erase tx.hash) rest later) :
    Renews latest (tx :: rest)
      { later with
        entries := fresh :: later.entries
        changed := if tx = fresh then later.changed else later.changed + 1 } := by
  have same : renewed latest tx = fresh := by
    rw [renewed, found]
    rfl
  have others : ∀ other ∈ rest, renewed (latest.erase tx.hash) other = renewed latest other := by
    intro other membership
    have differ : other.hash ≠ tx.hash := fun equal =>
      apart (equal ▸ List.mem_map_of_mem membership)
    rw [renewed, getElem?_erase_of_ne differ]
    rfl
  refine ⟨?_, ?_, ?_⟩
  · simp only [behind.entries, List.map_cons, same, List.map_congr_left others]
  · have changed : later.changed = rest.countP fun tx => renewed latest tx != tx := by
      rw [behind.changed]
      exact List.countP_congr fun other membership => by rw [others other membership]
    rw [List.countP_cons, same, ← changed]
    by_cases equal : tx = fresh
    · simp [equal]
    · simp [equal, Ne.symm equal]
  · intro hash
    by_cases own : hash = tx.hash
    · simp [behind.left, own]
    · simp [behind.left, own, getElem?_erase_of_ne own]

end Steps

theorem renews_update {txs : List LocalTx} (distinct : (txs.map LocalTx.hash).Nodup) :
    Renews latest txs (update latest txs) := by
  induction txs generalizing latest with
  | nil => exact ⟨rfl, rfl, fun _ => (if_neg List.not_mem_nil).symm⟩
  | cons tx rest ih =>
    rw [List.map_cons, List.nodup_cons] at distinct
    rw [update]
    split
    · next absent => exact .skip absent (ih distinct.2)
    · next fresh found => exact .take found distinct.1 (ih distinct.2)

theorem take_of_nodup {hashes : List Hash} (distinct : hashes.Nodup) :
    take latest hashes = hashes.filterMap fun hash => latest[hash]? := by
  induction hashes generalizing latest with
  | nil => rfl
  | cons hash rest ih =>
    rw [List.nodup_cons] at distinct
    cases found : latest[hash]? with
    | none => simp only [take, found, List.filterMap_cons_none found, ih distinct.2]
    | some tx =>
      simp only [take, found, List.filterMap_cons_some found, ih distinct.2]
      congr 1
      apply List.filterMap_congr
      intro other membership
      apply getElem?_erase_of_ne
      rintro rfl
      exact distinct.1 membership

end Passes

/-! ### All passes -/

def surviving (view : LocalTxView) (report : List LocalTx) : List LocalTx :=
  view.entries.filter fun tx => (reported? report tx.hash).isSome

def refreshed (report : List LocalTx) (tx : LocalTx) : LocalTx :=
  (reported? report tx.hash).getD tx

def arriving (view : LocalTxView) (report : List LocalTx) : List LocalTx :=
  ((LocalTx.hashes report).filter fun hash => !view.hashes.contains hash).filterMap
    (reported? report)

/-- What a report makes of a view, before it is put in order. -/
def merged (view : LocalTxView) (report : List LocalTx) : List LocalTx :=
  (view.surviving report).map (refreshed report) ++ view.arriving report

theorem surviving_hashes (view : LocalTxView) (report : List LocalTx) :
    (view.surviving report).map LocalTx.hash =
      view.hashes.filter (· ∈ report.map LocalTx.hash) := by
  rw [surviving, hashes, List.filter_map]
  congr 1
  apply List.filter_congr
  intro tx _
  rw [Bool.eq_iff_iff, isSome_reported?]
  simp

/-- On a view without repeats the passes come to this. -/
theorem reconcile_of_nodup {view : LocalTxView} (distinct : view.hashes.Nodup)
    (report : List LocalTx) :
    view.reconcile report =
      (⟨(view.arriving report).length, view.entries.length - (view.surviving report).length,
          (view.surviving report).countP fun tx => refreshed report tx != tx⟩,
        ⟨sortByRecency (view.merged report)⟩) := by
  have known : (view.entries.filter fun tx => (Incoming.ofReport report).latest.contains tx.hash) =
      view.surviving report := by
    simp only [Incoming.contains_ofReport]
    rfl
  have once : ((view.surviving report).map LocalTx.hash).Nodup := by
    rw [surviving_hashes]
    exact distinct.filter _
  have fresh : renewed (Incoming.ofReport report).latest = refreshed report := by
    funext tx
    rw [renewed, Incoming.latest_ofReport]
    rfl
  have renews : Renews (Incoming.ofReport report).latest (view.surviving report) _ :=
    renews_update once
  have new : take (update (Incoming.ofReport report).latest (view.surviving report)).left
      (LocalTx.hashes report) = view.arriving report := by
    rw [take_of_nodup (nodup_hashes report), arriving, List.filterMap_filter]
    apply List.filterMap_congr
    intro hash named
    simp only [renews.left, surviving_hashes, Incoming.latest_ofReport, List.mem_filter,
      mem_hashes.mp named, decide_true, and_true]
    by_cases old : hash ∈ view.hashes <;> simp [old]
  simp only [reconcile, known, renews.entries, renews.changed, fresh, Incoming.order_ofReport, new]
  rfl

theorem entries_reconcile {view : LocalTxView} (distinct : view.hashes.Nodup)
    (report : List LocalTx) :
    (view.reconcile report).2.entries = sortByRecency (view.merged report) := by
  rw [reconcile_of_nodup distinct]

end LocalTxView

end Countersign
