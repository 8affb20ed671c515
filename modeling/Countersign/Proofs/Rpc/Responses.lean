import Countersign.Proofs.Json.Objects
import Countersign.Rpc.Response

set_option autoImplicit false

/-!
# Responses read

A response is read from three members of an object: its id, its error and its result, of each
the last in the text. While the error is not null the result does not matter, and nothing else
in the text ever does, unless the text is an embedding of another.
-/

namespace Countersign.Rpc.Response

open Json (Lists last? lists_compact membersOf?)

section Members

variable {members : List (String × Json)}

theorem ofMembers_of_null (absent : (members.lookup "error").getD .null = .null) :
    ofMembers members =
      .ok ⟨(members.lookup "id").bind Json.asUInt64?, .ok ((members.lookup "result").getD .null)⟩ := by
  rw [ofMembers, absent]

theorem ofMembers_of_error {error : Json} (present : members.lookup "error" = some error)
    (nonnull : error ≠ .null) :
    ofMembers members =
      match Error.ofJson? error with
      | some e => .ok ⟨(members.lookup "id").bind Json.asUInt64?, .error e⟩
      | none => .error .badErrorObject := by
  rw [ofMembers, present, Option.getD_some]
  split
  · exact absurd rfl nonnull
  · rfl

/-- An error object is what makes a response of an error. -/
theorem ofMembers_eq_failed_iff {id : Option UInt64} {e : Error} :
    ofMembers members = .ok ⟨id, .error e⟩ ↔
      (members.lookup "id").bind Json.asUInt64? = id ∧
        (members.lookup "error").bind Error.ofJson? = some e := by
  cases found : members.lookup "error" with
  | none => simp [ofMembers_of_null, found]
  | some error =>
    by_cases isNull : error = .null
    · simp [ofMembers_of_null, found, isNull, Error.ofJson?]
    · rw [ofMembers_of_error found isNull, Option.bind_some]
      cases Error.ofJson? error <;> simp

/-- The error member is missing, null, or an error object. -/
def legible (members : List (String × Json)) : Bool :=
  (members.lookup "error").all fun error => error.isNull || (Error.ofJson? error).isSome

theorem ofMembers_of_legible (readable : legible members = true) :
    ∃ outcome, ofMembers members = .ok ⟨(members.lookup "id").bind Json.asUInt64?, outcome⟩ := by
  by_cases absent : (members.lookup "error").getD .null = .null
  · exact ⟨_, ofMembers_of_null absent⟩
  · cases found : members.lookup "error" with
    | none => simp [found] at absent
    | some error =>
      rw [found, Option.getD_some] at absent
      rw [legible, found, Option.all_some, Bool.or_eq_true] at readable
      have object : (Error.ofJson? error).isSome = true := by
        apply readable.resolve_left
        intro isNull
        cases error <;> contradiction
      obtain ⟨e, read⟩ := Option.isSome_iff_exists.mp object
      exact ⟨.error e, by rw [ofMembers_of_error found absent, read]⟩

theorem ofMembers_of_not_legible (unreadable : legible members = false) :
    ofMembers members = .error .badErrorObject := by
  rw [legible] at unreadable
  cases found : members.lookup "error" with
  | none => simp [found] at unreadable
  | some error =>
    rw [found, Option.all_some, Bool.or_eq_false_iff, Option.isSome_eq_false_iff,
      Option.isNone_iff_eq_none] at unreadable
    have nonnull : error ≠ .null := by
      rintro rfl
      cases unreadable.1
    rw [ofMembers_of_error found nonnull, unreadable.2]

end Members

section Texts

variable {text : String} {members : List (String × Json)}

theorem decode_of_parsed (parsed : Json.parse? text = some (.obj members)) :
    decode text = ofMembers members := by
  rw [decode, parsed]
  rfl

theorem decode_of_null (listed : Lists text members)
    (absent : (last? "error" members).getD .null = .null) :
    decode text =
      .ok ⟨(last? "id" members).bind Json.asUInt64?, .ok ((last? "result" members).getD .null)⟩ := by
  rw [← Json.lookup_foldl_putMember] at absent
  rw [decode_of_parsed listed.parse?_eq, ofMembers_of_null absent,
    Json.lookup_foldl_putMember, Json.lookup_foldl_putMember]

theorem decode_of_error (listed : Lists text members) {error : Json}
    (present : last? "error" members = some error) (nonnull : error ≠ .null) :
    decode text =
      match Error.ofJson? error with
      | some e => .ok ⟨(last? "id" members).bind Json.asUInt64?, .error e⟩
      | none => .error .badErrorObject := by
  rw [← Json.lookup_foldl_putMember] at present
  rw [decode_of_parsed listed.parse?_eq,
    ofMembers_of_error present nonnull, Json.lookup_foldl_putMember]

theorem decode_eq_failed_iff (listed : Lists text members) {id : Option UInt64} {e : Error} :
    decode text = .ok ⟨id, .error e⟩ ↔
      (last? "id" members).bind Json.asUInt64? = id ∧
        (last? "error" members).bind Error.ofJson? = some e := by
  rw [decode_of_parsed listed.parse?_eq, ofMembers_eq_failed_iff, Json.lookup_foldl_putMember,
    Json.lookup_foldl_putMember]

end Texts

/-- Two object texts whose last ids are equal are decoded alike if their last errors are equal
and not null, and also if these are null or missing and the last results are equal. Every
object text that can be read lists its members, unless it is an embedding; it is then decoded
as the text that it holds. -/
theorem decode_reads_last_members :
    (∀ (one two : String) (first second : List (String × Json)),
      Lists one first → Lists two second → last? "id" first = last? "id" second →
        (∀ error, error ≠ .null → last? "error" first = some error →
          last? "error" second = some error → decode one = decode two) ∧
        ((last? "error" first).getD .null = .null → (last? "error" second).getD .null = .null →
          (last? "result" first).getD .null = (last? "result" second).getD .null →
            ∃ response, decode one = .ok response ∧ decode two = .ok response ∧
              response.id = (last? "id" first).bind Json.asUInt64? ∧
              response.outcome = .ok ((last? "result" first).getD .null))) ∧
    ∀ (text : String) (trees : List (List Json.Part × Json.Tree)) (value : Json),
      Json.Tree.parse? text = some (.obj trees) → Json.parse? text = some value →
        (∃ members, Lists text members) ∨
          ∃ inner, membersOf? text = some [(Json.embeddingName, .str inner)] ∧
            decode text = decode inner := by
  constructor
  · intro one two first second listed relisted numbered
    constructor
    · intro error nonnull present again
      rw [decode_of_error listed present nonnull, decode_of_error relisted again nonnull, numbered]
    · intro absent missing resulted
      refine ⟨_, decode_of_null listed absent, ?_, rfl, rfl⟩
      rw [decode_of_null relisted missing, numbered, resulted]
  · intro text trees value parsed whole
    obtain ⟨members, object⟩ := Json.exists_membersOf? parsed whole
    cases embedding : Json.embeds members with
    | false => exact .inl ⟨members, object, embedding⟩
    | true =>
      obtain ⟨inner, rfl, held⟩ := Json.parse?_of_embedding object embedding whole
      refine .inr ⟨inner, object, ?_⟩
      rw [decode, decode, whole, held]

/-- The first error and the first id do not count, nor does the id inside of another member. -/
def wordy (error : Json) : List (String × Json) :=
  [("error", .bool true), ("id", .ofUInt64 1), ("a", .obj [("id", .ofUInt64 2)]),
    ("id", .ofUInt64 7), ("error", error), ("result", .str "r")]

def terse (error : Json) : List (String × Json) := [("error", error), ("id", .ofUInt64 7)]

def objection : Json := .obj [("code", .ofUInt64 1), ("message", .str "m")]

def disguise : String := "\x7b\"$serde_json::private::RawValue\":\"5\"\x7d"

theorem disguise_eq : disguise = (Json.obj [(Json.embeddingName, .str "5")]).compact := by
  decide +kernel

theorem membersOf?_disguise : membersOf? disguise = some [(Json.embeddingName, .str "5")] := by
  rw [disguise_eq, Json.membersOf?_compact rfl rfl (by decide)]
  rfl

theorem parse?_disguise : Json.parse? disguise = some (.ofUInt64 5) := by
  have five : "5" = (Json.ofUInt64 5).compact := by decide +kernel
  rw [disguise_eq, Json.parse?_compact rfl rfl (by decide), Json.asValue?_embedding, five,
    Json.parse?_compact rfl rfl (by decide)]
  rfl

theorem wordy_decoded_as_terse :
    decode (Json.obj (wordy objection)).compact = decode (Json.obj (terse objection)).compact ∧
      (∃ response,
        decode (Json.obj (wordy .null)).compact = .ok response ∧
        decode (Json.obj (("result", .str "r") :: terse .null)).compact = .ok response ∧
        response.id = some 7 ∧ response.outcome = .ok (.str "r")) ∧
      decode disguise = decode "5" := by
  obtain ⟨same, every⟩ := decode_reads_last_members
  have long : ∀ error ∈ [objection, .null], Lists (Json.obj (wordy error)).compact (wordy error) := by
    intro error among
    simp only [List.mem_cons, List.not_mem_nil, or_false] at among
    rcases among with rfl | rfl <;> exact lists_compact rfl (by decide +kernel) (by decide) rfl rfl
  have short : Lists (Json.obj (terse objection)).compact (terse objection) :=
    lists_compact rfl (by decide +kernel) (by decide) rfl rfl
  have shortNull : Lists (Json.obj (("result", .str "r") :: terse .null)).compact
      (("result", .str "r") :: terse .null) :=
    lists_compact rfl (by decide +kernel) (by decide) rfl rfl
  refine ⟨?_, ?_, ?_⟩
  · exact (same _ _ _ _ (long objection (by simp)) short rfl).1 objection nofun rfl rfl
  · exact (same _ _ _ _ (long .null (by simp)) shortNull rfl).2 rfl rfl rfl
  · obtain ⟨trees, parsed⟩ := Json.exists_obj_of_membersOf? membersOf?_disguise
    rcases every disguise trees _ parsed parse?_disguise with ⟨members, listed⟩ | ⟨inner, held, alike⟩
    · cases membersOf?_disguise.symm.trans listed.object
      cases listed.plain
    · cases membersOf?_disguise.symm.trans held
      exact alike

/-- Neither text has an id, an error or a result, but only the empty object is a response. -/
theorem disguise_not_decoded :
    (∃ first second, membersOf? disguise = some first ∧ membersOf? "\x7b\x7d" = some second ∧
      ∀ name ∈ ["id", "error", "result"], last? name first = none ∧ last? name second = none) ∧
    Json.parse? disguise = some (.ofUInt64 5) ∧ decode disguise = .error .notObject ∧
    Json.parse? "\x7b\x7d" = some (.obj []) ∧ decode "\x7b\x7d" = .ok ⟨none, .ok .null⟩ := by
  have empty : "\x7b\x7d" = (Json.obj []).compact := by decide +kernel
  have listed : Lists "\x7b\x7d" [] := empty ▸ lists_compact rfl rfl (by decide) rfl rfl
  refine ⟨⟨_, _, membersOf?_disguise, listed.object, by decide⟩, parse?_disguise, ?_,
    listed.parse?_eq, decode_of_null listed rfl⟩
  rw [decode, parse?_disguise]
  rfl

end Countersign.Rpc.Response
