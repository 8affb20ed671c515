import Countersign.Binary64.Basic

set_option autoImplicit false

/-!
# JSON values

A number is a whole number that fits 64 bits, signed below zero and unsigned above,
or a finite 64-bit float; `1` and `1.0` are different values. The members of an object
are kept in the order of their names, and names are ordered by code point.
-/

namespace Countersign

/-- A whole number from `-2^63` up to and without `2^64`. -/
structure Integer where
  value : Int
  fits : -0x8000000000000000 ≤ value ∧ value < 0x10000000000000000
  deriving DecidableEq

namespace Integer

def ofInt? (value : Int) : Option Integer :=
  if fits : -0x8000000000000000 ≤ value ∧ value < 0x10000000000000000 then some ⟨value, fits⟩ else none

def ofUInt64 (n : UInt64) : Integer :=
  ⟨n.toNat, by have := n.toNat_lt; omega⟩

def ofInt64 (n : Int64) : Integer :=
  ⟨n.toInt, by have := n.toInt_lt; have := n.le_toInt; omega⟩

def toUInt64? (n : Integer) : Option UInt64 :=
  if 0 ≤ n.value then some (UInt64.ofNat n.value.toNat) else none

def toInt64? (n : Integer) : Option Int64 :=
  if n.value < 0x8000000000000000 then some (Int64.ofInt n.value) else none

end Integer

inductive Json where
  | null
  | bool (value : Bool)
  | int (value : Integer)
  | float (value : Binary64)
  | str (text : String)
  | arr (items : List Json)
  | obj (members : List (String × Json))

namespace Json

instance : Inhabited Json := ⟨.null⟩

def ofUInt64 (n : UInt64) : Json := .int (Integer.ofUInt64 n)

def isNull : Json → Bool
  | .null => true
  | _ => false

def asString? : Json → Option String
  | .str text => some text
  | _ => none

def asUInt64? : Json → Option UInt64
  | .int n => n.toUInt64?
  | _ => none

def asInt64? : Json → Option Int64
  | .int n => n.toInt64?
  | _ => none

/-- The member of that name; what is no object has none. -/
def get? (name : String) : Json → Option Json
  | .obj members => members.lookup name
  | _ => none

/-- Puts a member in its place, where it takes over from one of the same name. -/
def putMember (name : String) (value : Json) : List (String × Json) → List (String × Json)
  | [] => [(name, value)]
  | (other, old) :: rest =>
    if name < other then (name, value) :: (other, old) :: rest
    else if name = other then (name, value) :: rest
    else (other, old) :: putMember name value rest

/-- The object of members given in any order, in which the last of a name counts. -/
def ofMembers (members : List (String × Json)) : Json :=
  .obj (members.foldl (fun sofar member => putMember member.1 member.2 sofar) [])

end Json

end Countersign
