import Countersign.Tracker
import Mathlib.Data.Nat.Find

set_option autoImplicit false

/-!
# How a wait ends

A wait asks one question again and again, sleeps before it asks again, and each call takes one
reply. It ends with the first reply that is not null, or when the policy allows no further
call. How many calls it has made is counted in 32 bits. The count stops at its largest number,
but no policy asks for more, so the wait ends at its budget and not before.
-/

namespace Countersign

namespace Rpc.Encoder

def past (encoder : Encoder) (calls : Nat) : Encoder :=
  { encoder with nextId := encoder.nextId + UInt64.ofNat calls }

@[simp]
theorem past_zero (encoder : Encoder) : encoder.past 0 = encoder := by
  simp [past]

@[simp]
theorem past_past (encoder : Encoder) (first second : Nat) :
    (encoder.past first).past second = encoder.past (first + second) := by
  simp [past, UInt64.add_assoc]

/-- The requests of a call that is made so many times, under ids in a row. -/
def requests (encoder : Encoder) (call : Call) (calls : Nat) : List Request :=
  (List.range calls).map fun i =>
    ⟨"2.0", call.method, call.params, encoder.nextId + UInt64.ofNat i⟩

theorem requests_one (encoder : Encoder) (call : Call) :
    encoder.requests call 1 = [encoder.envelope call] := by
  simp [requests, envelope]

theorem requests_add (encoder : Encoder) (call : Call) (first second : Nat) :
    encoder.requests call (first + second) =
      encoder.requests call first ++ (encoder.past first).requests call second := by
  simp [requests, past, List.range_add, UInt64.add_assoc, Function.comp_def]

@[simp]
theorem length_requests (encoder : Encoder) (call : Call) (calls : Nat) :
    (encoder.requests call calls).length = calls := by
  simp [requests]

end Rpc.Encoder

namespace Script

/-- The reply to a call that was made so many times before. -/
def replyAt (call : Call) (replies : List Reply) (earlier : Nat) : Reply :=
  replies[earlier]?.getD (.error (silence call))

@[simp]
theorem replyAt_drop (call : Call) (replies : List Reply) (n earlier : Nat) :
    replyAt call (replies.drop n) earlier = replyAt call replies (n + earlier) := by
  rw [replyAt, List.getElem?_drop]
  rfl

def past (script : Script) (call : Call) (calls : Nat) : Script :=
  ⟨script.encoder.past calls, script.replies.drop calls,
    script.sent ++ script.encoder.requests call calls⟩

@[simp]
theorem past_zero (script : Script) (call : Call) : script.past call 0 = script := by
  simp [past, Rpc.Encoder.requests]

@[simp]
theorem past_past (script : Script) (call : Call) (first second : Nat) :
    (script.past call first).past call second = script.past call (first + second) := by
  simp [past, Rpc.Encoder.requests_add]

theorem execute_eq (script : Script) (call : Call) :
    script.execute call = (replyAt call script.replies 0, script.past call 1) := by
  obtain ⟨encoder, replies, sent⟩ := script
  rw [past, Rpc.Encoder.requests_one]
  cases replies <;> rfl

end Script

namespace Tracker

open Script (replyAt)

/-! ### The count of calls -/

/-- Whether a wait may make so many calls; it makes one in any case. -/
def Policy.Allows (policy : Policy) (calls : Nat) : Prop :=
  ∀ most, policy.maxAttempts = some most → calls ≤ max 1 most.toNat

theorem Policy.allows_budget {policy : Policy} {most : UInt32}
    (budget : policy.maxAttempts = some most) : policy.Allows (max 1 most.toNat) := by
  intro other same
  rw [budget, Option.some.injEq] at same
  exact Nat.le_of_eq (same ▸ rfl)

/-- Where not everything is silent, the first that is not comes within the budget, or else the
budget is used up in silence. -/
theorem Policy.first_or_budget (policy : Policy) (silent : Nat → Prop) (ends : ∃ n, ¬silent n) :
    (∃ n, (∀ earlier < n, silent earlier) ∧ ¬silent n ∧ policy.Allows (n + 1)) ∨
      ∃ most, policy.maxAttempts = some most ∧ ∀ earlier < max 1 most.toNat, silent earlier := by
  classical
  have before : ∀ earlier < Nat.find ends, silent earlier := by
    intro earlier sooner
    exact Decidable.not_not.mp (Nat.find_min ends sooner)
  by_cases allowed : policy.Allows (Nat.find ends + 1)
  · exact .inl ⟨Nat.find ends, before, Nat.find_spec ends, allowed⟩
  · simp only [Policy.Allows, Classical.not_forall, Nat.not_le] at allowed
    obtain ⟨most, budget, more⟩ := allowed
    refine .inr ⟨most, budget, ?_⟩
    intro earlier within
    exact before earlier (by omega)

/-- What a wait counts after so many calls that said nothing. -/
def counted (calls : Nat) : UInt32 := UInt32.ofNat (min calls (UInt32.size - 1))

theorem toNat_counted (calls : Nat) : (counted calls).toNat = min calls (UInt32.size - 1) := by
  apply UInt32.toNat_ofNat_of_lt'
  rw [UInt32.size]
  omega

theorem oneMore_counted (calls : Nat) : oneMore (counted calls) = counted (calls + 1) := by
  apply UInt32.toNat_inj.mp
  have size : UInt32.size = 4294967296 := rfl
  have count := toNat_counted calls
  rw [oneMore, toNat_counted (calls + 1)]
  split
  · rw [UInt32.toNat_add, UInt32.toNat_one]
    omega
  · omega

/-! ### One call -/

def Inquiry.meaning {α : Type} (inquiry : Inquiry α) : Reply → Except Failure α
  | .ok value => .ok (inquiry.found value)
  | .error e => inquiry.failed e

section Waits

variable {α : Type} (inquiry : Inquiry α) (policy : Policy)

theorem Inquiry.hear_answer (attempts : UInt32) {reply : Reply} (answer : reply ≠ .ok .null) :
    inquiry.hear policy attempts reply = .done (inquiry.meaning reply) := by
  unfold hear
  split
  · rfl
  · exact absurd rfl answer
  · rfl

theorem Inquiry.hear_null_again {calls : Nat} (allowed : policy.Allows (calls + 2)) :
    inquiry.hear policy (counted calls) (.ok .null) = .again (counted (calls + 1)) := by
  rw [hear, oneMore_counted]
  cases budget : policy.maxAttempts with
  | none => rfl
  | some most =>
    have within := allowed most budget
    have small := most.toNat_lt
    refine if_neg ?_
    rw [UInt32.le_iff_toNat_le, toNat_counted, UInt32.size]
    omega

theorem Inquiry.hear_null_last {calls : Nat} {most : UInt32}
    (budget : policy.maxAttempts = some most) (last : calls + 1 = max 1 most.toNat) :
    inquiry.hear policy (counted calls) (.ok .null) =
      .done (.error (.call (.timeout (.ofNanos (policy.interval.nanos * (calls + 1)))))) := by
  have small := most.toNat_lt
  -- the count stops only behind the largest budget that a policy can have
  have count : (counted (calls + 1)).toNat = calls + 1 := by
    rw [toNat_counted, UInt32.size]
    omega
  rw [hear, oneMore_counted, budget]
  simp only [Duration.times, count]
  refine if_pos ?_
  rw [UInt32.le_iff_toNat_le, count]
  omega

/-! ### The whole wait -/

/-- The calls one after the other, with a sleep between every two. -/
def polling (interval : Duration) (asked : List Rpc.Request) : List Act :=
  (asked.map Act.call).intersperse (.sleep interval)

theorem polling_concat (interval : Duration) (asked : List Rpc.Request) (last : Rpc.Request) :
    polling interval (asked ++ [last]) =
      (asked.flatMap fun request => [.call request, .sleep interval]) ++ [.call last] := by
  induction asked with
  | nil => rfl
  | cons request rest ih =>
    rw [List.flatMap_cons, List.append_assoc, ← ih]
    cases rest <;> rfl

@[simp]
theorem requests_polling (interval : Duration) (asked : List Rpc.Request) :
    requests (polling interval asked) = asked := by
  induction asked with
  | nil => rfl
  | cons request rest ih =>
    cases rest with
    | nil => rfl
    | cons next rest => exact congrArg (request :: ·) ih

def Wait.preceded (wait : Wait α) (acts : List Act) : Wait α :=
  { wait with acts := acts ++ wait.acts }

theorem Inquiry.wait_step (attempts : UInt32) (script : Script) :
    inquiry.wait policy attempts script =
      match inquiry.hear policy attempts (replyAt inquiry.call script.replies 0) with
      | .done result =>
        ⟨result, [.call (script.encoder.envelope inquiry.call)], script.past inquiry.call 1⟩
      | .again attempts => (inquiry.wait policy attempts (script.past inquiry.call 1)).preceded
          [.call (script.encoder.envelope inquiry.call), .sleep policy.interval] := by
  rw [wait, script.execute_eq]
  split
  · next turn => rw [turn]
  · next turn =>
    rw [turn]
    rfl

theorem Inquiry.exists_calls (attempts : UInt32) (script : Script) :
    ∃ earlier, (requests (inquiry.wait policy attempts script).acts).length = earlier + 1 := by
  rw [inquiry.wait_step]
  split
  · exact ⟨0, rfl⟩
  · exact ⟨_, rfl⟩

/-- As long as replies are null and the policy allows another call, the wait goes on. -/
theorem Inquiry.wait_nulls {script : Script} {n : Nat}
    (silent : ∀ earlier < n, replyAt inquiry.call script.replies earlier = .ok .null)
    (allowed : policy.Allows (n + 1)) :
    inquiry.wait policy 0 script =
      (inquiry.wait policy (counted n) (script.past inquiry.call n)).preceded
        ((script.encoder.requests inquiry.call n).flatMap fun request =>
          [.call request, .sleep policy.interval]) := by
  induction n with
  | zero =>
    rw [Script.past_zero]
    rfl
  | succ n ih =>
    have null : replyAt inquiry.call (script.past inquiry.call n).replies 0 = .ok .null := by
      rw [Script.past, Script.replyAt_drop]
      exact silent n (Nat.lt_succ_self n)
    rw [ih (fun earlier before => silent earlier (Nat.lt_succ_of_lt before))
        (fun most budget => Nat.le_of_succ_le (allowed most budget)),
      inquiry.wait_step, null, inquiry.hear_null_again policy allowed, Script.past_past,
      Rpc.Encoder.requests_add, Rpc.Encoder.requests_one]
    simp [Wait.preceded, Script.past]

/-- The call with which a wait ends, when so many were made before it. -/
theorem Inquiry.wait_last {script : Script} {n : Nat} {result : Except Failure α}
    (silent : ∀ earlier < n, replyAt inquiry.call script.replies earlier = .ok .null)
    (allowed : policy.Allows (n + 1))
    (last : inquiry.hear policy (counted n) (replyAt inquiry.call script.replies n) =
      .done result) :
    inquiry.wait policy 0 script =
      ⟨result, polling policy.interval (script.encoder.requests inquiry.call (n + 1)),
        script.past inquiry.call (n + 1)⟩ := by
  have reply : replyAt inquiry.call (script.past inquiry.call n).replies 0 =
      replyAt inquiry.call script.replies n := by
    rw [Script.past, Script.replyAt_drop, Nat.add_zero]
  rw [inquiry.wait_nulls policy silent allowed, inquiry.wait_step, reply, last, Script.past_past,
    Rpc.Encoder.requests_add, Rpc.Encoder.requests_one, polling_concat]
  rfl

theorem Inquiry.wait_answered {script : Script} {n : Nat}
    (silent : ∀ earlier < n, replyAt inquiry.call script.replies earlier = .ok .null)
    (answer : replyAt inquiry.call script.replies n ≠ .ok .null)
    (allowed : policy.Allows (n + 1)) :
    inquiry.wait policy 0 script =
      ⟨inquiry.meaning (replyAt inquiry.call script.replies n),
        polling policy.interval (script.encoder.requests inquiry.call (n + 1)),
        script.past inquiry.call (n + 1)⟩ :=
  inquiry.wait_last policy silent allowed (inquiry.hear_answer policy _ answer)

theorem Inquiry.wait_exhausted {script : Script} {most : UInt32}
    (budget : policy.maxAttempts = some most)
    (silent : ∀ earlier < max 1 most.toNat,
      replyAt inquiry.call script.replies earlier = .ok .null) :
    inquiry.wait policy 0 script =
      ⟨.error (.call (.timeout (.ofNanos (policy.interval.nanos * max 1 most.toNat)))),
        polling policy.interval (script.encoder.requests inquiry.call (max 1 most.toNat)),
        script.past inquiry.call (max 1 most.toNat)⟩ := by
  obtain ⟨n, last⟩ : ∃ n, n + 1 = max 1 most.toNat := ⟨max 1 most.toNat - 1, by omega⟩
  have allowed : policy.Allows (n + 1) := last ▸ Policy.allows_budget budget
  rw [← last] at silent ⊢
  apply inquiry.wait_last policy (fun earlier before => silent earlier (Nat.lt_succ_of_lt before))
    allowed
  rw [silent n (Nat.lt_succ_self n)]
  exact inquiry.hear_null_last policy budget last

/-- A wait ends in one of two ways, since behind the last reply a call fails. -/
theorem Inquiry.wait_cases (replies : List Reply) :
    (∃ n, (∀ earlier < n, replyAt inquiry.call replies earlier = .ok .null) ∧
        replyAt inquiry.call replies n ≠ .ok .null ∧ policy.Allows (n + 1)) ∨
      ∃ most, policy.maxAttempts = some most ∧
        ∀ earlier < max 1 most.toNat, replyAt inquiry.call replies earlier = .ok .null := by
  apply policy.first_or_budget
  refine ⟨replies.length, ?_⟩
  rw [replyAt, List.getElem?_eq_none (Nat.le_refl _)]
  nofun

end Waits

/-! ### The law of polling -/

/-- How a wait goes that makes so many calls on a script, where `Tells` tells what a reply
means that is not null. -/
structure Polls {α : Type} (call : Call) (Tells : Reply → Except Failure α → Prop)
    (policy : Policy) (script : Script) (calls : Nat) (wait : Wait α) : Prop where
  /-- Every call is the same call, made under the next id, and a sleep of the interval stands
  between every two. -/
  acts : wait.acts = polling policy.interval (script.encoder.requests call calls)
  sent : wait.script.sent = script.sent ++ script.encoder.requests call calls
  /-- Every call takes one reply. -/
  replies : wait.script.replies = script.replies.drop calls
  /-- The first reply that is not null is what the wait ends with. -/
  answered : ∀ n, (∀ earlier < n, replyAt call script.replies earlier = .ok .null) →
    replyAt call script.replies n ≠ .ok .null → policy.Allows (n + 1) →
      calls = n + 1 ∧ Tells (replyAt call script.replies n) wait.result
  /-- If there is none up to the budget, the time of all attempts is what it ends with. -/
  exhausted : ∀ most, policy.maxAttempts = some most →
    (∀ earlier < max 1 most.toNat, replyAt call script.replies earlier = .ok .null) →
      calls = max 1 most.toNat ∧ ∃ limit, wait.result = .error (.call (.timeout limit)) ∧
        limit.nanos = min (max 1 most.toNat * policy.interval.nanos) Duration.longest.nanos
  /-- The budget is kept, whatever the replies are. -/
  bounded : policy.Allows calls

theorem Inquiry.polls {α : Type} {inquiry : Inquiry α} {Tells : Reply → Except Failure α → Prop}
    (tells : ∀ reply, reply ≠ .ok .null → Tells reply (inquiry.meaning reply))
    (policy : Policy) (script : Script) :
    ∃ calls, Polls inquiry.call Tells policy script calls (inquiry.wait policy 0 script) := by
  obtain ⟨calls, result, ended, bounded⟩ : ∃ calls result, inquiry.wait policy 0 script =
      ⟨result, polling policy.interval (script.encoder.requests inquiry.call calls),
        script.past inquiry.call calls⟩ ∧ policy.Allows calls := by
    rcases inquiry.wait_cases policy script.replies with
      ⟨n, silent, answer, allowed⟩ | ⟨most, budget, silent⟩
    · exact ⟨_, _, inquiry.wait_answered policy silent answer allowed, allowed⟩
    · exact ⟨_, _, inquiry.wait_exhausted policy budget silent, Policy.allows_budget budget⟩
  -- the trace has one call for each, so it tells how many there were
  have counts : ∀ more, (inquiry.wait policy 0 script).acts =
      polling policy.interval (script.encoder.requests inquiry.call more) → calls = more := by
    intro more acts
    simpa [ended] using congrArg (fun acts => (requests acts).length) acts
  refine ⟨calls, by rw [ended], by rw [ended]; rfl, by rw [ended]; rfl, ?_, ?_, bounded⟩
  · intro n silent answer allowed
    have whole := inquiry.wait_answered policy silent answer allowed
    refine ⟨counts _ (by rw [whole]), ?_⟩
    rw [whole]
    exact tells _ answer
  · intro most budget silent
    have whole := inquiry.wait_exhausted policy budget silent
    refine ⟨counts _ (by rw [whole]), _, by rw [whole], ?_⟩
    rw [Duration.ofNanos_nanos, Nat.mul_comm]

inductive TellsStatus : Reply → Except Failure Status → Prop
  | confirmed (value : Json) (answer : value ≠ .null) :
    TellsStatus (.ok value) (.ok (.confirmed (Outcome.ofJson value)))
  | rejected (error : Rpc.Error) (code : error.code = -32040) :
    TellsStatus (.error (.rpc error)) (.ok .rejected)
  | failed (e : CallError) (other : ∀ error, e = .rpc error → error.code ≠ -32040) :
    TellsStatus (.error e) (.error (.call e))

inductive TellsReceipt : Reply → Except Failure Json → Prop
  | found (value : Json) (answer : value ≠ .null) : TellsReceipt (.ok value) (.ok value)
  | failed (e : CallError) : TellsReceipt (.error e) (.error (.call e))

theorem TellsStatus.ne_pending {reply : Reply} {result : Except Failure Status}
    (told : TellsStatus reply result) : result ≠ .ok .pending := by
  cases told <;> nofun

theorem tellsStatus_refused (e : CallError) : TellsStatus (.error e) (refused e) := by
  cases e with
  | rpc error =>
    simp only [refused]
    split
    · next code => exact .rejected error (eq_of_beq code)
    · next code =>
      refine .failed _ ?_
      rintro _ ⟨⟩ same
      exact code (beq_iff_eq.mpr same)
  | _ => exact .failed _ nofun

theorem tellsStatus_settlement (id : RequestId) (reply : Reply) (answer : reply ≠ .ok .null) :
    TellsStatus reply ((settlement id).meaning reply) := by
  cases reply with
  | ok value => exact .confirmed value (fun null => answer (congrArg Except.ok null))
  | error e => exact tellsStatus_refused e

theorem tellsReceipt_receipt (hash : Hash) (reply : Reply) (answer : reply ≠ .ok .null) :
    TellsReceipt reply ((receipt hash).meaning reply) := by
  cases reply with
  | ok value => exact .found value (fun null => answer (congrArg Except.ok null))
  | error e => exact .failed e

/-- Whatever the policy and the replies are, both waits obey the law of polling: the one for a
request ends with its status, which is never pending, and the one for a receipt with the
receipt. -/
theorem waits_end_with_first_answer_or_budget (policy : Policy) (script : Script) :
    (∀ id : RequestId,
      let wait := (settlement id).wait policy 0 script
      (∃ calls, Polls ⟨"parity_checkRequest", [id.param]⟩ TellsStatus policy script calls wait) ∧
        wait.result ≠ .ok .pending) ∧
      ∀ hash : Hash, ∃ calls,
        Polls ⟨"eth_getTransactionReceipt", [.str hash.hex]⟩ TellsReceipt policy script calls
          ((receipt hash).wait policy 0 script) := by
  constructor
  · intro id wait
    obtain ⟨calls, law⟩ := Inquiry.polls (tellsStatus_settlement id) policy script
    refine ⟨⟨calls, law⟩, ?_⟩
    rcases (settlement id).wait_cases policy script.replies with
      ⟨n, silent, answer, allowed⟩ | ⟨most, budget, silent⟩
    · exact (law.answered n silent answer allowed).2.ne_pending
    · obtain ⟨-, limit, late, -⟩ := law.exhausted most budget silent
      rw [late]
      nofun
  · intro hash
    exact Inquiry.polls (tellsReceipt_receipt hash) policy script

end Tracker

end Countersign
