import Countersign.Text.Digits

set_option autoImplicit false

/-!
# Durations

A length of time in whole nanoseconds, of at most 2^64 seconds less one nanosecond.
Multiplying stops at that bound. The text of a duration takes the largest unit of
which it holds one, and writes the rest as an exact fraction.
-/

namespace Countersign

structure Duration where
  nanos : Nat
  bounded : nanos < 0x10000000000000000 * 1000000000
  deriving DecidableEq

namespace Duration

/-- The longest duration. -/
def longest : Duration := ⟨0x10000000000000000 * 1000000000 - 1, by decide⟩

/-- So many nanoseconds, or the longest duration if there are more than it has. -/
def ofNanos (n : Nat) : Duration :=
  if bounded : n < 0x10000000000000000 * 1000000000 then ⟨n, bounded⟩ else longest

theorem ofNanos_nanos (n : Nat) : (ofNanos n).nanos = min n longest.nanos := by
  unfold ofNanos longest
  split <;> simp only <;> omega

def ofMillis (n : UInt64) : Duration :=
  ⟨n.toNat * 1000000, by have := n.toNat_lt; omega⟩

def second : Duration := ofMillis 1000

/-- A duration taken so many times, or the longest one if that is more. -/
def times (d : Duration) (n : UInt32) : Duration := ofNanos (d.nanos * n.toNat)

/-- The digits behind the point, `places` of them less the zeros at their end. -/
def fraction (places rest : Nat) : List Char :=
  let digits := Nat.toDigits 10 rest
  let padded := List.replicate (places - digits.length) '0' ++ digits
  (padded.reverse.dropWhile (· == '0')).reverse

/-- A number of units of which each has `10 ^ places` nanoseconds. -/
def inUnit (nanos places : Nat) (unit : String) : String :=
  let size := Nat.pow 10 places
  let rest := nanos % size
  let point := if rest = 0 then "" else "." ++ String.ofList (fraction places rest)
  Digits.decimal (nanos / size) ++ point ++ unit

def text (d : Duration) : String :=
  if 1000000000 ≤ d.nanos then inUnit d.nanos 9 "s"
  else if 1000000 ≤ d.nanos then inUnit d.nanos 6 "ms"
  else if 1000 ≤ d.nanos then inUnit d.nanos 3 "µs"
  else inUnit d.nanos 0 "ns"

end Duration

end Countersign
