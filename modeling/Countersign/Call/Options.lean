import Countersign.Call.Error

set_option autoImplicit false

/-!
# Deadlines and cancellation

A caller may bound a call in time and may abort it. An abort wins over an answer that
is not yet taken; a deadline does not, so a call that is ready when its time is up
still answers. No timer runs for more than thirty years, so whatever takes longer
happens then.
-/

namespace Countersign

structure CallOptions where
  timeout : Option Duration

namespace CallOptions

def orDefault (options : CallOptions) (timeout : Option Duration) : CallOptions :=
  match options.timeout with
  | some _ => options
  | none => ⟨timeout⟩

/-- What is true of a running call at the moment it is looked at. -/
structure Moment where
  aborted : Bool
  answer : Option Reply
  /-- The time limit that has run out. -/
  expired : Option Duration

/-- What the caller gets at that moment, none while the call goes on. -/
def Moment.look (m : Moment) : Option Reply :=
  if m.aborted then some (.error .cancelled)
  else match m.answer with
    | some reply => some reply
    | none => m.expired.map fun limit => .error (.timeout limit)

/-- A call whose answer comes after some time or never, and which may be aborted. Times
count from its start. -/
structure Timeline where
  reply : Reply
  answeredAt : Option Duration
  /-- Aborted before it started. -/
  abortedBefore : Bool
  abortedAt : Option Duration

/-- The milliseconds after which a timer rings at the latest: thirty years of 365 days. -/
def lastTick : Nat := 30 * 365 * 86400 * 1000

/-- Timers tell whole milliseconds: they ring at the first one that is not too early, or
at the last one they tell. -/
def tick (d : Duration) : Nat := min ((d.nanos + 999999) / 1000000) lastTick

/-- What is true of the call when timers have told so many milliseconds. -/
def Timeline.moment (t : Timeline) (options : CallOptions) (now : Nat) : Moment where
  aborted := t.abortedBefore || t.abortedAt.any (tick · ≤ now)
  answer := if t.answeredAt.any (tick · ≤ now) then some t.reply else none
  expired := options.timeout.filter (tick · ≤ now)

/-- The moments at which something happens to the call, the earliest first. -/
def Timeline.ticks (t : Timeline) (options : CallOptions) : List Nat :=
  (0 :: (t.answeredAt.toList ++ t.abortedAt.toList ++ options.timeout.toList).map tick).mergeSort

/-- What the caller gets in the end, none if the call goes on for ever. -/
def Timeline.run (t : Timeline) (options : CallOptions) : Option Reply :=
  (t.ticks options).findSome? fun now => (t.moment options now).look

end CallOptions

end Countersign
