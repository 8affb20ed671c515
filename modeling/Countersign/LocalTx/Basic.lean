import Countersign.Request.Failure

set_option autoImplicit false

/-!
# Local transactions

The transactions that went through a node, as the node lists them: by hash, with a
status and, once mined, a block.
-/

namespace Countersign

structure LocalTx where
  hash : Hash
  status : String
  block : UInt64
  deriving DecidableEq

namespace LocalTx

/-- The block number of what is not mined yet. -/
def pendingBlock : UInt64 := 0

def isPending (tx : LocalTx) : Bool := tx.block == pendingBlock

/-- Reads one member of the node's list; one whose name is no hash is left out, and what
is missing in its value is made up for. -/
def ofMember? (member : String × Json) : Option LocalTx :=
  match FixedBytes.ofHex 32 member.1 with
  | .error _ => none
  | .ok hash =>
    let status := (member.2.get? "status").bind Json.asString?
    let block := ((member.2.get? "transaction").bind (Json.get? "blockNumber")).bind
      Quantity.ofJson?
    some ⟨hash, status.getD "unknown", block.getD pendingBlock⟩

def fetchCall : Call := ⟨"parity_localTransactions", []⟩

/-- The transactions in the order of the list's names. -/
def fetched : Reply → Except Failure (List LocalTx)
  | .error e => .error (.call e)
  | .ok (.obj members) => .ok (members.filterMap ofMember?)
  | .ok _ => .error (.malformed (.notObject fetchCall.method))

end LocalTx

end Countersign
