import Countersign.Duration
import Countersign.Quantity
import Countersign.Text.Blank

set_option autoImplicit false

/-!
# Settings

Where the node is and how patient to be with it, as the environment tells. A variable
that cannot be read counts as not set; blanks around numbers and flags are ignored, but
the address is taken as it stands.
-/

namespace Countersign

structure Settings where
  url : String
  requestTimeoutMs : Option UInt64
  pollIntervalMs : UInt64
  maxPollAttempts : Option UInt32
  debug : Bool
  deriving DecidableEq

namespace Settings

def default : Settings := ⟨"http://127.0.0.1:8545", none, 1000, none, false⟩

/-- A decimal number below a bound, with at most one plus sign. -/
def number? (bound : Nat) (text : String) : Option Nat :=
  (Digits.read? 10 (Quantity.unsign (Text.trim text.toList))).filter (· < bound)

/-- ASCII letters in lower case. -/
def lower (c : Char) : Char := if 'A' ≤ c ∧ c ≤ 'Z' then Char.ofNat (c.toNat + 32) else c

def flag? (text : String) : Option Bool :=
  let word := String.ofList ((Text.trim text.toList).map lower)
  if word ∈ ["1", "true", "yes", "on"] then some true
  else if word ∈ ["0", "false", "no", "off", ""] then some false
  else none

/-- The settings of an environment, given as the values of its variables. -/
def ofEnvironment (env : String → Option String) : Settings where
  url := (env "PARITY_SIGNER_RPC_URL").getD default.url
  requestTimeoutMs := ((env "PARITY_SIGNER_TIMEOUT_MS").bind (number? UInt64.size)).map .ofNat
  pollIntervalMs := (((env "PARITY_SIGNER_POLL_INTERVAL_MS").bind
    (number? UInt64.size)).map .ofNat).getD default.pollIntervalMs
  maxPollAttempts := ((env "PARITY_SIGNER_MAX_POLLS").bind (number? UInt32.size)).map .ofNat
  debug := ((env "PARITY_SIGNER_DEBUG").bind flag?).getD default.debug

def requestTimeout (s : Settings) : Option Duration := s.requestTimeoutMs.map .ofMillis

def pollInterval (s : Settings) : Duration := .ofMillis s.pollIntervalMs

end Settings

end Countersign
