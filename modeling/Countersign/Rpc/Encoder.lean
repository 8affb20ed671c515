import Countersign.Call.Error
import Countersign.Rpc.Request

set_option autoImplicit false

/-!
# Encoders

An encoder gives every call the next id and writes its envelope. Ids count up from the
first one and start over at zero behind the last 64-bit number. While debugging is on,
each envelope and each failure goes to the log.
-/

namespace Countersign.Rpc

inductive Level where
  | debug
  | error
  deriving DecidableEq, Repr

structure LogLine where
  level : Level
  message : String
  deriving DecidableEq, Repr

namespace Level

def name : Level → String
  | .debug => "DEBUG"
  | .error => "ERROR"

end Level

/-- The id and the text of an envelope. -/
structure Encoded where
  id : UInt64
  body : String
  deriving DecidableEq

structure Encoder where
  firstId : UInt64
  nextId : UInt64
  debug : Bool
  deriving DecidableEq

namespace Encoder

def startingAt (first : UInt64) : Encoder := ⟨first, first, false⟩

/-- Ids of a fresh encoder count from one. -/
def new : Encoder := startingAt 1

def setDebug (encoder : Encoder) (on : Bool) : Encoder := { encoder with debug := on }

/-- The id of the latest envelope, as far as the counter tells: it is above the first id
unless nothing was encoded or the ids have started over. -/
def lastId (encoder : Encoder) : Option UInt64 :=
  if encoder.firstId < encoder.nextId then some (encoder.nextId - 1) else none

/-- A line for the log, which is kept only while debugging is on. -/
def report (encoder : Encoder) (level : Level) (message : String) : List LogLine :=
  if encoder.debug then [⟨level, message⟩] else []

def log (encoder : Encoder) (message : String) : List LogLine :=
  encoder.report .debug message

def error (encoder : Encoder) (message : String) : List LogLine :=
  encoder.report .error message

/-- The line that tells of a failed call. -/
def failed (encoder : Encoder) (method : String) (e : CallError) : List LogLine :=
  encoder.error (method ++ ": " ++ e.message)

/-- The envelope that the next call gets. -/
def envelope (encoder : Encoder) (call : Call) : Request :=
  ⟨"2.0", call.method, call.params, encoder.nextId⟩

def advance (encoder : Encoder) : Encoder := { encoder with nextId := encoder.nextId + 1 }

def encode (encoder : Encoder) (call : Call) : Encoded × List LogLine × Encoder :=
  let body := (encoder.envelope call).text
  (⟨encoder.nextId, body⟩, encoder.log body, encoder.advance)

end Encoder

end Countersign.Rpc
