import Countersign.Proofs.Rpc.Envelope
import Countersign.Proofs.Rpc.Responses

set_option autoImplicit false

/-!
# Error objects read back

An error object is printed with its code first and its data last, is read as an object whose
members are in order, and its data is looked through twice. It comes back whole exactly if its
data has no object in it that begins with the embedding name, wherever in a response it stands.
-/

namespace Countersign

theorem Integer.toInt64?_ofInt64 (n : Int64) : (ofInt64 n).toInt64? = some n := by
  have fits : n.toInt < 0x8000000000000000 := n.toInt_lt
  rw [toInt64?, ofInt64, if_pos fits, Int64.ofInt_toInt]

namespace Rpc

open Json (Inscribed Lists Tree last?)

namespace Error

/-- What the reader of responses asks of the data: whole numbers only, members in order, room
for the error object and the response around it, and that it is not null. -/
structure Sendable (e : Error) : Prop where
  exact : ∀ data ∈ e.data, data.floatFree = true
  ordered : ∀ data ∈ e.data, data.orderly = true
  shallow : ∀ data ∈ e.data, data.nesting ≤ 125
  nonnull : e.data ≠ some .null

def members (e : Error) : List (String × Json) :=
  [("code", .int (Integer.ofInt64 e.code)), ("message", .str e.message)] ++
    (e.data.map fun data => ("data", data)).toList

theorem mem_members_iff {e : Error} {member : String × Json} :
    member ∈ e.members ↔
      member = ("code", .int (Integer.ofInt64 e.code)) ∨ member = ("message", .str e.message) ∨
        ∃ data ∈ e.data, ("data", data) = member := by
  simp [members]

theorem floatFree_members {e : Error} (sendable : e.Sendable) :
    Json.allMembers (!·.isFloat) e.members = true := by
  rw [Json.allMembers_iff]
  intro member among
  rcases mem_members_iff.mp among with rfl | rfl | ⟨data, given, rfl⟩
  · rfl
  · rfl
  · exact sendable.exact data given

/-- The text of an error object is read as the object with its data looked through. -/
theorem toJson?_json {e : Error} (sendable : e.Sendable) :
    (Tree.ofJson e.json).toJson? (Json.maxDepth - 1) =
      (Json.asMembers? e.members).map .ofMembers := by
  refine Tree.value?_of_plain (floatFree_members sendable) (Json.allMembers_iff.mpr ?_)
    (Json.memberNesting_le_iff.mpr ?_) rfl
  · intro member among
    rcases mem_members_iff.mp among with rfl | rfl | ⟨data, given, rfl⟩
    · rfl
    · rfl
    · exact sendable.ordered data given
  · intro member among
    rcases mem_members_iff.mp among with rfl | rfl | ⟨data, given, rfl⟩
    · exact Nat.zero_le _
    · exact Nat.zero_le _
    · exact sendable.shallow data given

theorem asMembers?_members_some (code : Int64) (message : String) (data : Json) :
    Json.asMembers? (members ⟨code, message, some data⟩) =
      (Json.asValue? data).map fun looked => members ⟨code, message, some looked⟩ := by
  simp only [members, Option.map_some, Option.toList_some, List.cons_append, List.nil_append,
    Json.asMembers?, Json.asValue?]
  cases Json.asValue? data <;> rfl

/-- In whatever order the members are kept, the data is looked through once more. -/
theorem ofJson?_members (e : Error) :
    ofJson? (.ofMembers e.members) = (dataOf? e.data).map fun data => { e with data } := by
  have coded : last? "code" e.members = some (.int (Integer.ofInt64 e.code)) := by
    obtain ⟨code, message, _ | data⟩ := e <;> rfl
  have worded : last? "message" e.members = some (.str e.message) := by
    obtain ⟨code, message, _ | data⟩ := e <;> rfl
  have given : last? "data" e.members = e.data := by
    obtain ⟨code, message, _ | data⟩ := e <;> rfl
  simp only [Json.ofMembers, ofJson?, Json.lookup_foldl_putMember, coded, worded, given, ofParts?,
    Json.asInt64?, Integer.toInt64?_ofInt64, Json.asString?]
  cases dataOf? e.data <;> rfl

theorem dataOf?_eq_some_iff {value data : Json} :
    dataOf? (some value) = some (some data) ↔ value ≠ .null ∧ Json.asValue? value = some data := by
  cases value <;> simp [dataOf?, Json.asOption?]

/-- Data comes through both readings as it was, exactly if it comes through the first. -/
theorem dataOf?_asValue?_iff {data : Json} (nonnull : data ≠ .null) :
    ((Json.asValue? data).bind fun looked => dataOf? (some looked)) = some (some data) ↔
      data.embeddingFree = true := by
  rw [← Json.asValue?_eq_self_iff, Option.bind_eq_some_iff]
  constructor
  · rintro ⟨looked, first, second⟩
    have same := Json.eq_of_asValue? (Json.asValue?_loneFree first) (dataOf?_eq_some_iff.mp second).2
    rw [first, same]
  · intro unchanged
    exact ⟨data, unchanged, dataOf?_eq_some_iff.mpr ⟨nonnull, unchanged⟩⟩

/-- The text of an error object is read as the error, exactly if nothing in its data is an
embedding. -/
theorem ofJson?_toJson?_json_iff {e : Error} (sendable : e.Sendable) :
    ((Tree.ofJson e.json).toJson? (Json.maxDepth - 1)).bind ofJson? = some e ↔
      ∀ data ∈ e.data, data.embeddingFree = true := by
  rw [toJson?_json sendable]
  obtain ⟨code, message, _ | data⟩ := e
  · have looked : Json.asMembers? (members ⟨code, message, none⟩) =
        some (members ⟨code, message, none⟩) := rfl
    rw [looked, Option.map_some, Option.bind_some, ofJson?_members]
    simp [dataOf?]
  · have nonnull : data ≠ .null := fun null => sendable.nonnull (congrArg some null)
    have twice : ((Json.asMembers? (members ⟨code, message, some data⟩)).map
        Json.ofMembers).bind ofJson? =
          ((Json.asValue? data).bind fun looked => dataOf? (some looked)).map
            fun data => ⟨code, message, data⟩ := by
      rw [asMembers?_members_some]
      cases Json.asValue? data with
      | none => rfl
      | some looked => exact ofJson?_members ⟨code, message, some looked⟩
    rw [twice, Option.map_eq_some_iff]
    simp only [mk.injEq, true_and, exists_eq_right, Option.mem_some_iff, forall_eq']
    exact dataOf?_asValue?_iff nonnull

theorem data_ne_null_of_parts {code message : Json} {data : Option Json} {e : Error}
    (free : ∀ value ∈ data, value.loneFree = true) (read : ofParts? code message data = some e) :
    e.data ≠ some .null := by
  unfold ofParts? at read
  split at read
  · next taken =>
    cases read
    rintro rfl
    cases data with
    | none => cases taken
    | some value =>
      obtain ⟨nonnull, looked⟩ := dataOf?_eq_some_iff.mp taken
      exact nonnull (Json.eq_of_asValue? (free value rfl) looked).symm
  · cases read

/-- Data that stands for null can only be embedded, and no value that was read has that in it. -/
theorem data_ne_null {value : Json} (free : value.loneFree = true) {e : Error}
    (read : ofJson? value = some e) : e.data ≠ some .null := by
  unfold ofJson? at read
  split at read
  · split at read
    · exact data_ne_null_of_parts (fun _ => Json.loneFree_of_lookup free) read
    · cases read
  · exact data_ne_null_of_parts (by simp) read
  · next data =>
    have third := Json.loneFree_arr_iff.mp free data (by simp)
    exact data_ne_null_of_parts (by simpa using third) read
  · cases read

end Error

namespace Response

/-- No response that is read has an error with null for its data. -/
theorem data_ne_null_of_decode {text : String} {id : Option UInt64} {e : Error}
    (decoded : decode text = .ok ⟨id, .error e⟩) : e.data ≠ some .null := by
  unfold decode at decoded
  split at decoded
  · next value parsed =>
    unfold ofJson at decoded
    split at decoded
    · obtain ⟨error, found, read⟩ :=
        Option.bind_eq_some_iff.mp (ofMembers_eq_failed_iff.mp decoded).2
      exact Error.data_ne_null
        (Json.loneFree_of_lookup (Json.parseWithin_loneFree parsed) found) read
    · cases decoded
  · cases decoded

end Response

/-- The members of a response that answers a call with an error, in whatever order: its id, the
error as it is printed, and others that can be read and have other names. -/
structure Refusal (id : UInt64) (e : Error) where
  written : List Inscribed
  numbered : Inscribed
  failed : Inscribed
  others : List Inscribed
  order : written.Perm (numbered :: failed :: others)
  number : numbered.member? = some ("id", .ofUInt64 id)
  title : failed.name? = some "error"
  printed : failed.value = e.json.compact
  aside : ∀ other ∈ others, ∃ member, other.member? = some member ∧
    member.1 ≠ "id" ∧ member.1 ≠ "error"

namespace Refusal

variable {id : UInt64} {e : Error}

def text (r : Refusal id e) : String := Inscribed.text r.written

theorem mem_written_iff (r : Refusal id e) {m : Inscribed} :
    m ∈ r.written ↔ m = r.numbered ∨ m = r.failed ∨ m ∈ r.others := by
  rw [r.order.mem_iff, List.mem_cons, List.mem_cons]

theorem name?_others (r : Refusal id e) {other : Inscribed} (among : other ∈ r.others) :
    other.name? ≠ some "id" ∧ other.name? ≠ some "error" := by
  obtain ⟨member, found, notId, notError⟩ := r.aside other among
  rw [(Inscribed.member?_eq_some_iff.mp found).1]
  exact ⟨fun same => notId (Option.some.inj same), fun same => notError (Option.some.inj same)⟩

theorem tree_failed (r : Refusal id e) (sendable : e.Sendable) : r.failed.tree = .ofJson e.json := by
  have exact : e.json.floatFree = true := Error.floatFree_members sendable
  have parsed := Tree.parse?_eq_some_iff.mpr r.failed.spelled
  rw [r.printed, Tree.parse?_compact exact, Option.some.injEq] at parsed
  exact parsed.symm

section Members

variable {members : List (String × Json)}

theorem last?_id (r : Refusal id e) (read : r.written.map Inscribed.member? = members.map some) :
    last? "id" members = some (.ofUInt64 id) := by
  have ⟨named, value⟩ := Inscribed.member?_eq_some_iff.mp r.number
  rw [← value]
  refine Inscribed.last?_of_only read (r.mem_written_iff.mpr (.inl rfl)) named ?_
  intro m among called
  rcases r.mem_written_iff.mp among with rfl | rfl | other
  · rfl
  · simp [r.title] at called
  · exact absurd called (r.name?_others other).1

theorem last?_error (r : Refusal id e) (sendable : e.Sendable)
    (read : r.written.map Inscribed.member? = members.map some) :
    last? "error" members = (Tree.ofJson e.json).toJson? (Json.maxDepth - 1) := by
  rw [← r.tree_failed sendable]
  refine Inscribed.last?_of_only read (r.mem_written_iff.mpr (.inr (.inl rfl))) r.title ?_
  intro m among called
  rcases r.mem_written_iff.mp among with rfl | rfl | other
  · simp [(Inscribed.member?_eq_some_iff.mp r.number).1] at called
  · rfl
  · exact absurd called (r.name?_others other).2

/-- A response that lists its members is decoded as what its error object is read as. -/
theorem decode_iff_of_lists (r : Refusal id e) (sendable : e.Sendable)
    (listed : Lists r.text members) {failure : Error} :
    Response.decode r.text = .ok ⟨some id, .error failure⟩ ↔
      ((Tree.ofJson e.json).toJson? (Json.maxDepth - 1)).bind Error.ofJson? = some failure := by
  have read := (Inscribed.lists_text_iff.mp listed).1
  have number : (last? "id" members).bind Json.asUInt64? = some id := by
    rw [r.last?_id read]
    exact Integer.toUInt64?_ofUInt64 id
  rw [Response.decode_eq_failed_iff listed, and_iff_right number, r.last?_error sendable read]

end Members

theorem exists_lists_of_decode (r : Refusal id e) {response : Response}
    (decoded : Response.decode r.text = .ok response) : ∃ members, Lists r.text members := by
  have several : 2 ≤ r.written.length := by
    rw [r.order.length_eq]
    simp
  cases whole : Json.parse? r.text with
  | none =>
    rw [Response.decode, whole] at decoded
    cases decoded
  | some value => exact Inscribed.exists_lists_text several whole

/-- If the error object can be read, so can every member around it. -/
theorem exists_lists (r : Refusal id e) (sendable : e.Sendable) {error : Json}
    (valued : (Tree.ofJson e.json).toJson? (Json.maxDepth - 1) = some error)
    (plain : ∀ first ∈ r.written.head?, first.name? ≠ some Json.embeddingName) :
    ∃ members, Lists r.text members := by
  have readable : ∀ m ∈ r.written, ∃ member, m.member? = some member := by
    intro m among
    rcases r.mem_written_iff.mp among with rfl | rfl | other
    · exact ⟨_, r.number⟩
    · rw [← r.tree_failed sendable] at valued
      exact ⟨("error", error), Inscribed.member?_eq_some_iff.mpr ⟨r.title, valued⟩⟩
    · obtain ⟨member, found, -⟩ := r.aside m other
      exact ⟨member, found⟩
  obtain ⟨members, read⟩ := Inscribed.exists_members readable
  exact ⟨members, Inscribed.lists_text_iff.mpr ⟨read, plain⟩⟩

/-- A response with an error is decoded as its id and the error itself, and the call fails with
it, exactly if nothing in the data of the error begins with the embedding name, nor does the
response. No text is decoded as an error whose data is null. -/
theorem decoded_iff_embeddingFree (r : Refusal id e) (sendable : e.Sendable) :
    ((Response.decode r.text = .ok ⟨some id, .error e⟩ ∧ replyOf r.text = .error (.rpc e)) ↔
      (∀ data ∈ e.data, data.embeddingFree = true) ∧
        ∀ first ∈ r.written.head?, first.name? ≠ some Json.embeddingName) ∧
    ∀ (text : String) (response : Response) (failure : Error),
      Response.decode text = .ok response → response.outcome = .error failure →
        failure.data ≠ some .null := by
  refine ⟨⟨?_, ?_⟩, ?_⟩
  · rintro ⟨decoded, -⟩
    obtain ⟨members, listed⟩ := r.exists_lists_of_decode decoded
    have read := (r.decode_iff_of_lists sendable listed).mp decoded
    exact ⟨(Error.ofJson?_toJson?_json_iff sendable).mp read, (Inscribed.lists_text_iff.mp listed).2⟩
  · rintro ⟨free, plain⟩
    have read := (Error.ofJson?_toJson?_json_iff sendable).mpr free
    obtain ⟨error, valued, -⟩ := Option.bind_eq_some_iff.mp read
    obtain ⟨members, listed⟩ := r.exists_lists sendable valued plain
    have decoded := (r.decode_iff_of_lists sendable listed).mpr read
    refine ⟨decoded, ?_⟩
    rw [replyOf, decoded]
    rfl
  · rintro text ⟨number, outcome⟩ failure decoded rfl
    exact Response.data_ne_null_of_decode decoded

def harsh : Error :=
  ⟨Int64.minValue, "a\"b\\c\n\u0001é",
    some (.obj [("#", .null), (Json.embeddingName, .arr [.str "2", .obj []])])⟩

/-- The error stands behind a result and a member with the embedding name, and before the
largest id. -/
def harshRefusal : Refusal 0xFFFFFFFFFFFFFFFF harsh where
  written := [.printed "result" (.arr []) rfl, .printed Json.embeddingName .null rfl,
    .printed "error" harsh.json rfl, .printed "id" (.ofUInt64 0xFFFFFFFFFFFFFFFF) rfl]
  numbered := .printed "id" (.ofUInt64 0xFFFFFFFFFFFFFFFF) rfl
  failed := .printed "error" harsh.json rfl
  others := [.printed Json.embeddingName .null rfl, .printed "result" (.arr []) rfl]
  order := List.reverse_perm [_, _, _, _]
  number := Inscribed.member?_printed "id" rfl rfl (by decide) rfl
  title := Inscribed.name?_printed "error" _ rfl
  printed := rfl
  aside := by
    simp only [List.forall_mem_cons, List.not_mem_nil, false_imp_iff, implies_true, and_true]
    constructor
    · exact ⟨_, Inscribed.member?_printed _ rfl rfl (by decide) rfl, by decide, by decide⟩
    · exact ⟨_, Inscribed.member?_printed _ rfl rfl (by decide) rfl, by decide, by decide⟩

theorem harshRefusal_decoded :
    harsh.Sendable ∧
      Response.decode harshRefusal.text = .ok ⟨some 0xFFFFFFFFFFFFFFFF, .error harsh⟩ ∧
      replyOf harshRefusal.text = .error (.rpc harsh) ∧ harsh.data ≠ some .null := by
  have sendable : harsh.Sendable := by
    refine ⟨?_, ?_, ?_, nofun⟩ <;> rintro _ ⟨⟩ <;> decide +kernel
  obtain ⟨comesBack, never⟩ := harshRefusal.decoded_iff_embeddingFree sendable
  obtain ⟨decoded, replied⟩ := comesBack.mpr (by
    refine ⟨?_, ?_⟩
    · rintro _ ⟨⟩
      decide +kernel
    · simp only [harshRefusal, List.head?_cons, Option.mem_some_iff, forall_eq']
      decide)
  exact ⟨sendable, decoded, replied, never _ _ _ decoded rfl⟩

def disguised : Error := ⟨1, "m", some (.obj [(Json.embeddingName, .str "2")])⟩

def disguisedRefusal : Refusal 1 disguised where
  written := [.printed "id" (.ofUInt64 1) rfl, .printed "error" disguised.json rfl]
  numbered := .printed "id" (.ofUInt64 1) rfl
  failed := .printed "error" disguised.json rfl
  others := []
  order := .refl _
  number := Inscribed.member?_printed "id" rfl rfl (by decide) rfl
  title := Inscribed.name?_printed "error" _ rfl
  printed := rfl
  aside := nofun

/-- The call is told of another error than the node has sent. -/
theorem disguisedRefusal_changed :
    disguised.Sendable ∧
      disguisedRefusal.text = "\x7b\"id\":1,\"error\":\x7b\"code\":1,\"message\":\"m\",\"data\":" ++
        "\x7b\"$serde_json::private::RawValue\":\"2\"\x7d\x7d\x7d" ∧
      Response.decode disguisedRefusal.text = .ok ⟨some 1, .error ⟨1, "m", some (.ofUInt64 2)⟩⟩ ∧
      disguised ≠ ⟨1, "m", some (.ofUInt64 2)⟩ := by
  have sendable : disguised.Sendable := by
    refine ⟨?_, ?_, ?_, nofun⟩ <;> rintro _ ⟨⟩ <;> decide +kernel
  have two : "2" = (Json.ofUInt64 2).compact := by decide +kernel
  have looked : Json.asValue? (.obj [(Json.embeddingName, .str "2")]) = some (.ofUInt64 2) := by
    rw [Json.asValue?_embedding, two, Json.parse?_compact rfl rfl (by decide)]
    rfl
  have valued : (Tree.ofJson disguised.json).toJson? (Json.maxDepth - 1) =
      some (.ofMembers (Error.members ⟨1, "m", some (.ofUInt64 2)⟩)) := by
    rw [Error.toJson?_json sendable, disguised, Error.asMembers?_members_some, looked]
    rfl
  have plain : ∀ first ∈ disguisedRefusal.written.head?, first.name? ≠ some Json.embeddingName := by
    simp only [disguisedRefusal, List.head?_cons, Option.mem_some_iff, forall_eq']
    decide
  obtain ⟨members, listed⟩ := disguisedRefusal.exists_lists sendable valued plain
  refine ⟨sendable, by decide +kernel,
    (disguisedRefusal.decode_iff_of_lists sendable listed).mpr ?_, nofun⟩
  rw [valued, Option.bind_some, Error.ofJson?_members]
  rfl

end Refusal

end Rpc

end Countersign
