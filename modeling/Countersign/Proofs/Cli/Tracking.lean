import Countersign.Proofs.Cli.Runs
import Countersign.Proofs.Outcomes

set_option autoImplicit false

/-!
# Two waits, one after the other

The command that tracks a request asks about it until it is settled. Only if the answer is
the hash of a transaction does it go on, and asks for the receipt of just that transaction.
Either wait has all the calls of the policy to itself.
-/

namespace Countersign

/-! ### Messages of failed calls -/

namespace CallError

/-- A row of digits and a colon behind it is not the beginning of a number behind `0x`. -/
theorem digits_ne_marked {row rest other : List Char} (digits : ∀ c ∈ row, c.isDigit = true) :
    row ++ ':' :: rest ≠ '0' :: 'x' :: other := by
  match row with
  | [] => simp
  | [_] => simp
  | first :: second :: more =>
    -- the `x` would have to be the second digit
    intro same
    have letter : second = 'x' := by
      simp only [List.cons_append, List.cons.injEq] at same
      exact same.2.1
    have digit := digits second (by simp)
    rw [letter] at digit
    exact absurd digit (by decide)

theorem decimal_ne_marked (n : Nat) (rest other : List Char) :
    Nat.toDigits 10 n ++ ':' :: rest ≠ '0' :: 'x' :: other :=
  digits_ne_marked fun _ membership => Nat.isDigit_of_mem_toDigits (by decide) (by decide) membership

theorem not_marked_of_head {first : String} (rest other : String)
    (head : first.toList.head?.any (· != '0') = true) : first ++ rest ≠ "0x" ++ other := by
  intro same
  have chars : first.toList ++ rest.toList = '0' :: 'x' :: other.toList := by
    rw [← String.toList_append, same, String.toList_append]
    rfl
  cases letters : first.toList with
  | nil => simp [letters] at head
  | cons c more =>
    rw [letters, List.cons_append, List.cons.injEq] at chars
    simp [letters, chars.1] at head

theorem not_marked_of_decimal (n : Nat) (rest other : String) :
    Digits.decimal n ++ ": " ++ rest ≠ "0x" ++ other := by
  intro same
  apply decimal_ne_marked n (' ' :: rest.toList) other.toList
  have chars := congrArg String.toList same
  simp only [Digits.decimal, String.toList_append, String.toList_ofList, List.append_assoc] at chars
  exact chars

/-- No failed call is told in a text that begins with `0x`. -/
theorem message_ne_marked (e : CallError) (text : String) : e.message ≠ "0x" ++ text := by
  cases e with
  | http status reason => exact not_marked_of_decimal status reason text
  | rpc error =>
    change Digits.signed error.code.toInt ++ ": " ++ error.message ≠ "0x" ++ text
    rw [Digits.signed]
    split
    · rw [String.append_assoc, String.append_assoc]
      exact not_marked_of_head _ _ (by decide)
    · exact not_marked_of_decimal _ _ _
  | connectionClosed =>
    rw [← String.append_empty (s := message _)]
    exact not_marked_of_head _ _ (by decide)
  | connection detail => exact not_marked_of_head _ _ (by decide)
  | timeout limit => exact not_marked_of_head _ _ (by decide)
  | cancelled =>
    rw [← String.append_empty (s := message _)]
    exact not_marked_of_head _ _ (by decide)
  | encode detail => exact not_marked_of_head _ _ (by decide)
  | decode detail => exact not_marked_of_head _ _ (by decide)

end CallError

namespace Cli

open Http (answerAt)
open Tracker (Policy Inquiry)

def IsHash (value : Json) (digits : List Char) : Prop :=
  ∃ text, value = .str text ∧ Hex.Holds text digits ∧ digits.length = 64 ∧
    ∀ c ∈ digits, c ∈ Digits.alphabet

theorem IsHash.transaction {value : Json} {digits : List Char} (isHash : IsHash value digits) :
    ∃ hash : Hash, Outcome.ofJson value = .transaction hash ∧
      hash.hex = "0x" ++ String.ofList (digits.map Char.toLower) := by
  obtain ⟨text, rfl, held, size, inside⟩ := isHash
  obtain ⟨bytes, spelled⟩ := Hex.exists_spells_iff.mpr ⟨by omega, inside⟩
  have length := Hex.length_of_spells spelled
  refine ⟨⟨bytes, by omega⟩, ?_, ?_⟩
  · exact Outcome.ofJson_eq_transaction_iff.mpr ⟨text, rfl, digits, held, spelled⟩
  · rw [spelled]
    rfl

theorem isHash_of_transaction {value : Json} {hash : Hash}
    (found : Outcome.ofJson value = .transaction hash) : ∃ digits, IsHash value digits := by
  obtain ⟨text, rfl, digits, held, spelled⟩ := Outcome.ofJson_eq_transaction_iff.mp found
  have length := Hex.length_of_spells spelled
  exact ⟨digits, text, rfl, held, by rw [length, hash.length_eq],
    (Hex.exists_spells_iff.mp ⟨_, spelled⟩).2⟩

/-! ### The two jobs -/

theorem asks_settle (policy : Policy) (id : RequestId) :
    Job.Asks policy (Tracker.settlement id) (.settle id) (Job.settled id) where
  ask _ := rfl
  turn attempts reply := by
    cases reply with
    | ok value =>
      simp only [Job.turn, Job.heard]
      cases (Tracker.settlement id).hear policy attempts (.ok value) <;> rfl
    | error e =>
      have told := Tracker.tellsStatus_refused e
      simp only [Job.turn, Job.failed, Inquiry.hear, Tracker.settlement]
      generalize Tracker.refused e = result at told
      cases told <;> rfl

theorem asks_receipt (policy : Policy) (hash : Hash) :
    Job.Asks policy (Tracker.receipt hash) (.receipt hash) fun result => .done (.ofReceipt result) where
  ask _ := rfl
  turn attempts reply := by
    cases reply with
    | ok value =>
      simp only [Job.turn, Job.heard]
      cases (Tracker.receipt hash).hear policy attempts (.ok value) <;> rfl
    | error e => rfl

/-! ### How a wait ends -/

/-- So many calls are made: up to the first answer, or as many as the policy allows. -/
inductive Calls (policy : Policy) (answers : Nat → Option Reply) : Nat → Prop
  | answered {n : Nat} (first : FirstAnswer policy answers n) : Calls policy answers (n + 1)
  | exhausted {most : UInt32} (silent : Exhausted policy answers most) :
    Calls policy answers (max 1 most.toNat)

/-- If the run fails, it tells how a call failed and nothing else. -/
def Run.TellsCall (run : Run) : Prop :=
  ∀ causes, run.failure = some causes → ∃ e : CallError, causes = [e.message]

section Waits

variable {α : Type} {policy : Policy} {inquiry : Inquiry α} {job : UInt32 → Job}
  {close : Except Failure α → Turn} (asks : Job.Asks policy inquiry job close)
  {client : Http.Client} {reactions : List Http.Reaction}

include asks

theorem Job.Asks.run_ended {n : Nat} {ending : Except Failure α → Ending}
    (first : FirstAnswer policy (answerAt client.timeout reactions) n)
    (ends : ∀ reply, answerAt client.timeout reactions n = some reply →
      close (inquiry.meaning reply) = .done (ending (inquiry.meaning reply)))
    (tells : ∀ reply causes, (ending (inquiry.meaning reply)).failure = some causes →
      ∃ e : CallError, causes = [e.message]) :
    let run := runJob policy client (job 0) reactions
    run.requests = client.encoder.requests inquiry.call (n + 1) ∧
      (run.code = some 0 ↔ ∃ reply, answerAt client.timeout reactions n = some reply ∧
        (ending (inquiry.meaning reply)).failure = none) ∧
      run.TellsCall := by
  intro run
  have whole : run = _ := asks.runJob_answered first
  cases answered : answerAt client.timeout reactions n with
  | none =>
    rw [answered, Option.elim_none] at whole
    rw [whole]
    simp [Run.TellsCall]
  | some reply =>
    rw [answered, Option.elim_some, ends reply answered, Turn.run] at whole
    rw [whole]
    refine ⟨by simp, ?_, tells reply⟩
    simp [Ending.run_code_iff]

theorem Job.Asks.run_exhausted {most : UInt32}
    (failed : ∀ e, close (.error e) = .done (.ofFailure e))
    (exhausted : Exhausted policy (answerAt client.timeout reactions) most) :
    let run := runJob policy client (job 0) reactions
    run.requests = client.encoder.requests inquiry.call (max 1 most.toNat) ∧ run.code ≠ some 0 ∧
      run.TellsCall := by
  intro run
  obtain ⟨limit, whole⟩ := asks.runJob_exhausted exhausted
  have ended : run = _ := whole
  rw [failed, Turn.run] at ended
  rw [ended]
  refine ⟨by simp, by simp [Ending.run_code_iff, Ending.ofFailure], ?_⟩
  rintro _ ⟨⟩
  exact ⟨.timeout limit, rfl⟩

end Waits

section Phases

variable (policy : Policy) (client : Http.Client) (reactions : List Http.Reaction)

/-- The second wait, which succeeds if a receipt comes. -/
theorem runJob_receipt (hash : Hash) :
    let answers := answerAt client.timeout reactions
    let run := runJob policy client (.receipt hash 0) reactions
    ∃ calls, Calls policy answers calls ∧
      run.requests = client.encoder.requests (Tracker.receipt hash).call calls ∧
      (run.code = some 0 ↔
        ∃ n receipt, FirstAnswer policy answers n ∧ answers n = some (.ok receipt)) ∧
      run.TellsCall := by
  intro answers run
  rcases firstAnswer_or_exhausted policy client.timeout reactions with ⟨n, first⟩ | ⟨most, silent⟩
  · obtain ⟨requests, success, tells⟩ := (asks_receipt policy hash).run_ended first
      (fun _ _ => rfl) (by
        rintro (e | value) _ ⟨⟩
        exact ⟨e, rfl⟩)
    refine ⟨n + 1, .answered first, requests, success.trans ⟨?_, ?_⟩, tells⟩
    · rintro ⟨e | receipt, answered, good⟩
      · cases good
      · exact ⟨n, receipt, first, answered⟩
    · rintro ⟨m, receipt, second, answered⟩
      rw [second.unique first] at answered
      exact ⟨_, answered, rfl⟩
  · obtain ⟨requests, failed, tells⟩ :=
      (asks_receipt policy hash).run_exhausted (fun _ => rfl) silent
    refine ⟨_, .exhausted silent, requests, iff_of_false failed ?_, tells⟩
    rintro ⟨n, -, first, -⟩
    exact silent.not_firstAnswer n first

variable {policy client reactions} (id : RequestId)

/-- The first wait if it ends with a hash, and the second one behind it. -/
theorem runJob_settle_found {n : Nat} {value : Json} {hash : Hash}
    (first : FirstAnswer policy (answerAt client.timeout reactions) n)
    (answered : answerAt client.timeout reactions n = some (.ok value))
    (found : Outcome.ofJson value = .transaction hash) :
    let run := runJob policy client (.settle id 0) reactions
    let rest := runJob policy (client.past (n + 1)) (.receipt hash 0) (reactions.drop (n + 1))
    run.requests = client.encoder.requests (Tracker.checkCall id) (n + 1) ++ rest.requests ∧
      run.code = rest.code ∧ run.failure = rest.failure := by
  intro run rest
  have whole : run = _ := (asks_settle policy id).runJob_answered first
  have meant : (Tracker.settlement id).meaning (.ok value) =
      .ok (.confirmed (.transaction hash)) := by
    rw [← found]
    rfl
  rw [answered, Option.elim_some, meant] at whole
  rw [whole, Run.preceded_requests, Tracker.requests_polling]
  exact ⟨rfl, rfl, rfl⟩

theorem settled_of_unfound {reply : Reply}
    (unfound : ∀ value hash, reply = .ok value → Outcome.ofJson value ≠ .transaction hash) :
    Job.settled id ((Tracker.settlement id).meaning reply) =
      .done (.ofStatus id ((Tracker.settlement id).meaning reply)) := by
  unfold Job.settled
  split
  · next hash confirmed =>
    cases reply with
    | ok value =>
      simp only [Inquiry.meaning, Tracker.settlement, Except.ok.injEq, Status.confirmed.injEq]
        at confirmed
      exact absurd confirmed (unfound value hash rfl)
    | error e =>
      have told := Tracker.tellsStatus_refused e
      have refused : Tracker.refused e = .ok (.confirmed (.transaction hash)) := confirmed
      rw [refused] at told
      cases told
  · rfl

/-- What the end of a wait for a request tells. -/
theorem failure_ofStatus (reply : Reply) :
    let ending := Ending.ofStatus id ((Tracker.settlement id).meaning reply)
    (ending.failure = none ↔
        (∃ error, reply = .error (.rpc error) ∧ error.code = -32040) ∨ ∃ value, reply = .ok value) ∧
      ∀ causes, ending.failure = some causes → ∃ e : CallError, causes = [e.message] := by
  cases reply with
  | ok value => exact ⟨iff_of_true rfl (.inr ⟨value, rfl⟩), nofun⟩
  | error e =>
    have told := Tracker.tellsStatus_refused e
    simp only [Inquiry.meaning, Tracker.settlement]
    generalize Tracker.refused e = result at told
    cases told with
    | rejected error code => exact ⟨iff_of_true rfl (.inl ⟨error, rfl, code⟩), nofun⟩
    | failed e other =>
      refine ⟨iff_of_false nofun ?_, ?_⟩
      · rintro (⟨error, same, code⟩ | ⟨value, same⟩)
        · exact other error (Except.error.inj same) code
        · cases same
      · rintro _ ⟨⟩
        exact ⟨e, rfl⟩

/-- The first wait if it ends with anything else. -/
theorem runJob_settle_unfound {n : Nat}
    (first : FirstAnswer policy (answerAt client.timeout reactions) n)
    (unfound : ∀ value hash, answerAt client.timeout reactions n = some (.ok value) →
      Outcome.ofJson value ≠ .transaction hash) :
    let run := runJob policy client (.settle id 0) reactions
    run.requests = client.encoder.requests (Tracker.checkCall id) (n + 1) ∧
      (run.code = some 0 ↔
        (∃ error, answerAt client.timeout reactions n = some (.error (.rpc error)) ∧
          error.code = -32040) ∨
        ∃ value, answerAt client.timeout reactions n = some (.ok value)) ∧
      run.TellsCall := by
  intro run
  obtain ⟨requests, success, tells⟩ := (asks_settle policy id).run_ended first
    (fun reply answered => settled_of_unfound id fun value hash same =>
      unfound value hash (same ▸ answered))
    fun reply => (failure_ofStatus id reply).2
  refine ⟨requests, success.trans ?_, tells⟩
  cases answered : answerAt client.timeout reactions n with
  | none => simp
  | some reply => simp [(failure_ofStatus id reply).1]

end Phases

/-! ### Both waits -/

/-- A call with one parameter that is made again and again, the ids going up from the first. -/
def asked (method param : String) (first calls : Nat) : List Rpc.Request :=
  (List.range calls).map fun i => ⟨"2.0", method, [.str param], UInt64.ofNat (first + i)⟩

theorem requests_eq_asked {client : Http.Client} (new : client.encoder.nextId = 1)
    (method param : String) (earlier calls : Nat) :
    (client.past earlier).encoder.requests ⟨method, [.str param]⟩ calls =
      asked method param (earlier + 1) calls := by
  apply List.map_congr_left
  intro i _
  simp [Http.Client.past, Rpc.Encoder.past, new, UInt64.ofNat_add, UInt64.add_comm]

theorem checks_eq_asked {client : Http.Client} (new : client.encoder.nextId = 1) (id : RequestId)
    (calls : Nat) :
    client.encoder.requests (Tracker.checkCall id) calls =
      asked "parity_checkRequest" ("0x" ++ Digits.hex id.val.toNat) 1 calls := by
  rw [← client.past_zero]
  exact requests_eq_asked new _ id.text 0 calls

theorem receipts_eq_asked {client : Http.Client} (new : client.encoder.nextId = 1) (hash : Hash)
    (earlier calls : Nat) :
    (client.past earlier).encoder.requests (Tracker.receipt hash).call calls =
      asked "eth_getTransactionReceipt" hash.hex (earlier + 1) calls :=
  requests_eq_asked new _ hash.hex earlier calls

structure Tracks (policy : Policy) (answers : Nat → Option Reply) (id : UInt64) (run : Run) :
    Prop where
  /-- If the first answer is no hash, nothing but the request is asked for. -/
  unfound : (∀ n value digits, FirstAnswer policy answers n → answers n = some (.ok value) →
      ¬IsHash value digits) →
    ∃ checks, Calls policy answers checks ∧
      run.requests = asked "parity_checkRequest" ("0x" ++ Digits.hex id.toNat) 1 checks
  /-- If it is one, the receipt is asked for behind it, with calls of its own to spend. -/
  found : ∀ n value digits, FirstAnswer policy answers n → answers n = some (.ok value) →
    IsHash value digits →
    ∃ receipts, 0 < receipts ∧ Calls policy (fun later => answers (n + 1 + later)) receipts ∧
      run.requests = asked "parity_checkRequest" ("0x" ++ Digits.hex id.toNat) 1 (n + 1) ++
        asked "eth_getTransactionReceipt" ("0x" ++ String.ofList (digits.map Char.toLower)) (n + 2)
          receipts
  success : run.code = some 0 ↔ ∃ n, FirstAnswer policy answers n ∧
    ((∃ error, answers n = some (.error (.rpc error)) ∧ error.code = -32040) ∨
      ∃ value, answers n = some (.ok value) ∧ ∀ digits, IsHash value digits →
        ∃ m receipt, FirstAnswer policy (fun later => answers (n + 1 + later)) m ∧
          answers (n + 1 + m) = some (.ok receipt))
  notPending : run.failure ≠ some ["0x" ++ Digits.hex id.toNat ++ " still pending"]

theorem Calls.pos {policy : Policy} {answers : Nat → Option Reply} {calls : Nat}
    (made : Calls policy answers calls) : 0 < calls := by
  cases made with
  | answered _ => omega
  | exhausted _ => omega

theorem Calls.eq_of_firstAnswer {policy : Policy} {answers : Nat → Option Reply} {calls n : Nat}
    (made : Calls policy answers calls) (first : FirstAnswer policy answers n) : calls = n + 1 := by
  cases made with
  | answered other => rw [other.unique first]
  | exhausted silent => exact absurd first (silent.not_firstAnswer n)

theorem Run.TellsCall.ne_marked {run : Run} (tells : run.TellsCall) (text more : String) :
    run.failure ≠ some ["0x" ++ text ++ more] := by
  intro failed
  obtain ⟨e, same⟩ := tells _ failed
  rw [String.append_assoc] at same
  exact e.message_ne_marked _ (List.cons.inj same).1.symm

section Tracks

variable {policy : Policy} {client : Http.Client} (new : client.encoder.nextId = 1)
  {reactions : List Http.Reaction} (id : RequestId)

include new

theorem tracks_of_found {n : Nat} {value : Json} {hash : Hash}
    (first : FirstAnswer policy (answerAt client.timeout reactions) n)
    (answered : answerAt client.timeout reactions n = some (.ok value))
    (found : Outcome.ofJson value = .transaction hash) :
    Tracks policy (answerAt client.timeout reactions) id.val
      (runJob policy client (.settle id 0) reactions) := by
  obtain ⟨requests, code, failure⟩ := runJob_settle_found id first answered found
  obtain ⟨receipts, made, more, success, tells⟩ :=
    runJob_receipt policy (client.past (n + 1)) (reactions.drop (n + 1)) hash
  -- the second wait hears what comes behind the answers of the first
  have later : answerAt (client.past (n + 1)).timeout (reactions.drop (n + 1)) =
      fun later => answerAt client.timeout reactions (n + 1 + later) :=
    funext fun later => Http.answerAt_drop _ _ _ _
  rw [later] at made success
  have only : ∀ m other, FirstAnswer policy (answerAt client.timeout reactions) m →
      answerAt client.timeout reactions m = some (.ok other) → m = n ∧ other = value := by
    intro m other second replied
    obtain rfl := second.unique first
    rw [answered] at replied
    cases replied
    exact ⟨rfl, rfl⟩
  obtain ⟨digits, isHash⟩ := isHash_of_transaction found
  refine ⟨fun none => absurd isHash (none n value digits first answered), ?_, ?_, ?_⟩
  · intro m other written second replied spelled
    obtain ⟨rfl, rfl⟩ := only m other second replied
    obtain ⟨same, read, lower⟩ := spelled.transaction
    rw [found, Outcome.transaction.injEq] at read
    refine ⟨receipts, made.pos, made, ?_⟩
    rw [requests, more, ← lower, ← read, checks_eq_asked new, receipts_eq_asked new]
  · rw [code, success]
    constructor
    · rintro ⟨m, receipt, second, arrived⟩
      exact ⟨n, first, .inr ⟨value, answered, fun _ _ => ⟨m, receipt, second, arrived⟩⟩⟩
    · rintro ⟨m, second, ⟨error, refused, -⟩ | ⟨other, replied, receives⟩⟩
      · obtain rfl := second.unique first
        rw [answered] at refused
        cases refused
      · obtain ⟨rfl, rfl⟩ := only m other second replied
        exact receives digits isHash
  · rw [failure]
    exact tells.ne_marked _ _

theorem tracks_of_unfound {n : Nat}
    (first : FirstAnswer policy (answerAt client.timeout reactions) n)
    (unfound : ∀ value hash, answerAt client.timeout reactions n = some (.ok value) →
      Outcome.ofJson value ≠ .transaction hash) :
    Tracks policy (answerAt client.timeout reactions) id.val
      (runJob policy client (.settle id 0) reactions) := by
  obtain ⟨requests, success, tells⟩ := runJob_settle_unfound id first unfound
  have no : ∀ value digits, answerAt client.timeout reactions n = some (.ok value) →
      ¬IsHash value digits := by
    intro value digits answered isHash
    obtain ⟨hash, found, -⟩ := isHash.transaction
    exact unfound value hash answered found
  refine ⟨?_, ?_, ?_, tells.ne_marked _ _⟩
  · intro _
    exact ⟨n + 1, .answered first, requests.trans (checks_eq_asked new id _)⟩
  · intro m value digits second answered isHash
    obtain rfl := second.unique first
    exact absurd isHash (no value digits answered)
  · rw [success]
    constructor
    · rintro (refused | ⟨value, answered⟩)
      · exact ⟨n, first, .inl refused⟩
      · exact ⟨n, first, .inr ⟨value, answered, fun digits isHash =>
          absurd isHash (no value digits answered)⟩⟩
    · rintro ⟨m, second, refused | ⟨value, answered, -⟩⟩
      · obtain rfl := second.unique first
        exact .inl refused
      · obtain rfl := second.unique first
        exact .inr ⟨value, answered⟩

theorem tracks_of_exhausted {most : UInt32}
    (silent : Exhausted policy (answerAt client.timeout reactions) most) :
    Tracks policy (answerAt client.timeout reactions) id.val
      (runJob policy client (.settle id 0) reactions) := by
  obtain ⟨requests, failed, tells⟩ := (asks_settle policy id).run_exhausted (fun _ => rfl) silent
  refine ⟨?_, ?_, ?_, tells.ne_marked _ _⟩
  · intro _
    exact ⟨_, .exhausted silent, requests.trans (checks_eq_asked new id _)⟩
  · intro n _ _ first
    exact absurd first (silent.not_firstAnswer n)
  · refine iff_of_false failed ?_
    rintro ⟨n, first, -⟩
    exact silent.not_firstAnswer n first

theorem tracks :
    Tracks policy (answerAt client.timeout reactions) id.val
      (runJob policy client (.settle id 0) reactions) := by
  rcases firstAnswer_or_exhausted policy client.timeout reactions with ⟨n, first⟩ | ⟨most, silent⟩
  · by_cases found : ∃ value hash, answerAt client.timeout reactions n = some (.ok value) ∧
        Outcome.ofJson value = .transaction hash
    · obtain ⟨value, hash, answered, transaction⟩ := found
      exact tracks_of_found new id first answered transaction
    · refine tracks_of_unfound new id first ?_
      intro value hash answered transaction
      exact found ⟨value, hash, answered, transaction⟩
  · exact tracks_of_exhausted new id silent

end Tracks

def written : String := "ABABABABABABABABABABABABABABABABABABABABABABABABABABABABABABABAB"

def informant : Server :=
  ⟨fun _ => true,
    [.response 200 (Utf8.encode ("\x7b\"result\":\"" ++ written ++ "\"\x7d")) true,
      .response 200 (Utf8.encode "\x7b\"result\":\"receipt\"\x7d") true]⟩

end Cli

end Countersign
