import Countersign.Quantity

set_option autoImplicit false

/-!
# Request ids

The number under which a node keeps a request that waits for confirmation. On the wire
it is written in hexadecimal, and read as any quantity.
-/

namespace Countersign

structure RequestId where
  val : UInt64
  deriving DecidableEq

namespace RequestId

instance : Ord RequestId := ⟨compareOn val⟩

instance : Std.TransOrd RequestId :=
  inferInstanceAs (Std.TransCmp (compareOn RequestId.val))

instance : Std.LawfulEqOrd RequestId where
  eq_of_compare {a b} h := by
    have same : a.val = b.val := Std.LawfulEqOrd.eq_of_compare (h : compare a.val b.val = .eq)
    cases a
    cases b
    simp_all

def text (id : RequestId) : String := "0x" ++ Digits.hex id.val.toNat

/-- The id as a parameter of a call. -/
def param (id : RequestId) : Json := .str id.text

def ofJson? (value : Json) : Option RequestId := (Quantity.ofJson? value).map .mk

end RequestId

end Countersign
