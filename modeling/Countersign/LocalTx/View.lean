import Countersign.LocalTx.Basic
import Std.Data.ExtTreeMap

set_option autoImplicit false

/-!
# The view of local transactions

A view follows the node's reports: it drops what is no longer reported, brings the rest
up to date and appends what is new. Then it puts pending transactions first and the
mined ones after them, the latest block first. The sort is stable, so ties keep the
order they had.
-/

namespace Countersign

namespace LocalTx

/-- What a view is ordered by; pending counts as later than any block. -/
def recency (block : UInt64) : UInt64 :=
  if block = pendingBlock then UInt64.ofNat (UInt64.size - 1) else block

def sortByRecency (txs : List LocalTx) : List LocalTx :=
  txs.mergeSort fun a b => decide (recency b.block ≤ recency a.block)

/-- What a report has under each hash, which is the last there is, and its hashes as they are
first named. -/
structure Incoming where
  latest : Std.ExtTreeMap Hash LocalTx
  order : List Hash

namespace Incoming

def add (incoming : Incoming) (tx : LocalTx) : Incoming :=
  { latest := incoming.latest.insert tx.hash tx
    order := if incoming.latest.contains tx.hash then incoming.order
      else incoming.order ++ [tx.hash] }

def ofReport (report : List LocalTx) : Incoming := report.foldl add ⟨∅, []⟩

end Incoming

end LocalTx

structure LocalTxView where
  entries : List LocalTx

namespace LocalTxView

/-- How many entries a report has added, removed and changed. -/
structure Summary where
  added : Nat
  removed : Nat
  updated : Nat
  deriving DecidableEq, Repr

def empty : LocalTxView := ⟨[]⟩

def hashes (view : LocalTxView) : List Hash := view.entries.map LocalTx.hash

/-- What an update makes of entries: how many it changes, and what it leaves of a report. -/
structure Update where
  entries : List LocalTx
  changed : Nat
  left : Std.ExtTreeMap Hash LocalTx

/-- Each entry takes what is reported under its hash. -/
def update (latest : Std.ExtTreeMap Hash LocalTx) : List LocalTx → Update
  | [] => ⟨[], 0, latest⟩
  | tx :: rest =>
    match latest[tx.hash]? with
    | none =>
      let later := update latest rest
      { later with entries := tx :: later.entries }
    | some fresh =>
      let later := update (latest.erase tx.hash) rest
      { later with
        entries := fresh :: later.entries
        changed := if tx = fresh then later.changed else later.changed + 1 }

/-- What is left under some hashes, each taken once. -/
def take (latest : Std.ExtTreeMap Hash LocalTx) : List Hash → List LocalTx
  | [] => []
  | hash :: rest =>
    match latest[hash]? with
    | none => take latest rest
    | some tx => tx :: take (latest.erase hash) rest

def reconcile (view : LocalTxView) (report : List LocalTx) : Summary × LocalTxView :=
  let incoming := LocalTx.Incoming.ofReport report
  let known := view.entries.filter fun tx => incoming.latest.contains tx.hash
  let updated := update incoming.latest known
  let new := take updated.left incoming.order
  let summary : Summary :=
    { added := new.length
      removed := view.entries.length - known.length
      updated := updated.changed }
  (summary, ⟨LocalTx.sortByRecency (updated.entries ++ new)⟩)

end LocalTxView

end Countersign
