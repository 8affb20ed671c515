import Countersign.Proofs.Json.Reread
import Countersign.Rpc.Encoder

set_option autoImplicit false

/-!
# Envelopes read back

The text of an envelope is read as the envelope itself, with its parameters looked through
once more. So an encoded call comes back whole exactly if none of its parameters has an
object in it that begins with the embedding name.
-/

namespace Countersign

theorem Integer.toUInt64?_ofUInt64 (n : UInt64) : (ofUInt64 n).toUInt64? = some n := by
  simp [toUInt64?, ofUInt64]

namespace Rpc

open Json (Tree)

namespace Request

/-- What the reader of envelopes asks of the parameters: whole numbers only, members in
order, and room for the envelope and the list around them. -/
structure Readable (params : List Json) : Prop where
  exact : ∀ param ∈ params, param.floatFree = true
  ordered : ∀ param ∈ params, param.orderly = true
  shallow : ∀ param ∈ params, param.nesting ≤ 125

theorem floatFree_json {r : Request} (exact : ∀ param ∈ r.params, param.floatFree = true) :
    r.json.floatFree = true := by
  simpa [json, Json.floatFree, Json.all, Json.allMembers, Json.isFloat, Json.ofUInt64,
    Json.allItems_iff] using exact

/-- The tree of an envelope has every field once. -/
theorem ofTree?_ofJson (r : Request) :
    ofTree? (.ofJson r.json) =
      ofTrees? (.ofJson (.str r.version)) (.ofJson (.str r.method)) (.ofJson (.arr r.params))
        (.ofJson (.ofUInt64 r.id)) := by
  simp only [json, Tree.ofJson, Tree.ofMembers, ofTree?, Tree.fields?, Json.Part.text?_written]
  simp [Tree.field?]

/-- Every field but the parameters is read as it was written. -/
theorem parse?_text {r : Request} (readable : Readable r.params) :
    parse? r.text = (Json.asValues? r.params).map fun params => { r with params } := by
  have items : Tree.asItems? (Json.maxDepth - 1) (.ofJson (.arr r.params)) =
      Json.asValues? r.params :=
    Tree.values?_ofItems r.params (Json.allItems_iff.mpr readable.exact)
      (Json.allItems_iff.mpr readable.ordered)
      (Json.itemNesting_le_iff.mpr readable.shallow)
  have number : ((Tree.ofJson (.ofUInt64 r.id)).asInteger?.bind Integer.toUInt64?) = some r.id := by
    simp [Json.ofUInt64, Tree.ofJson, Tree.asInteger?, Json.Numeral.value?_ofInteger,
      Integer.toUInt64?_ofUInt64]
  have string : ∀ text : String, (Tree.ofJson (.str text)).asString? = some text := by
    simp [Tree.ofJson, Tree.asString?, Json.Part.text?_written]
  rw [parse?, text, Tree.parse?_compact (floatFree_json readable.exact), Option.bind_some,
    ofTree?_ofJson, ofTrees?, items, number, string, string]
  cases Json.asValues? r.params <;> rfl

end Request

namespace Encoder

open Request (Readable)

/-- A call is read back from its envelope with the version of the protocol, its method, its
parameters and the id it was given, and is written as the same text again, exactly if no
object in its parameters begins with the embedding name. -/
theorem reread_iff_embeddingFree (encoder : Encoder) (call : Call)
    (readable : Readable call.params) :
    let encoded := (encoder.encode call).1
    let read := Request.parse? encoded.body
    (read = some ⟨"2.0", call.method, call.params, encoded.id⟩ ∧
        read.map Request.text = some encoded.body) ↔
      ∀ param ∈ call.params, param.embeddingFree = true := by
  intro encoded read
  have body : read = (Json.asValues? call.params).map
      fun params => ⟨"2.0", call.method, params, encoded.id⟩ :=
    Request.parse?_text (r := encoder.envelope call) readable
  have same : Json.asValues? call.params = some call.params ↔
      ∀ param ∈ call.params, param.embeddingFree = true := by
    rw [Json.asValues?_eq_self_iff, Json.allItems_iff]
    rfl
  rw [← same]
  constructor
  · rintro ⟨whole, -⟩
    rw [body] at whole
    obtain ⟨params, looked, equal⟩ := Option.map_eq_some_iff.mp whole
    rw [looked, (Request.mk.inj equal).2.2.1]
  · intro looked
    rw [looked, Option.map_some] at body
    rw [body]
    exact ⟨rfl, rfl⟩

/-- A method with a quote, a backslash and a control character, and parameters at the ends
of the number range with an embedding name that is not the first. -/
def intricate : Call :=
  ⟨"a\"b\\c\n\u0001é", [.int ⟨-0x8000000000000000, by decide⟩, .int ⟨0xFFFFFFFFFFFFFFFF, by decide⟩,
    .obj [("#", .null), (Json.embeddingName, .arr [.str "\t", .obj []])]]⟩

theorem intricate_reread :
    Readable intricate.params ∧
      Request.parse? ((startingAt 41).encode intricate).1.body =
        some ⟨"2.0", intricate.method, intricate.params, 41⟩ := by
  have readable : Readable intricate.params := ⟨by decide, by decide +kernel, by decide⟩
  refine ⟨readable, ?_⟩
  exact ((reread_iff_embeddingFree (startingAt 41) intricate readable).mpr (by decide +kernel)).1

def disguised : Call :=
  ⟨"m", [.obj [(Json.embeddingName, .str "2"), ("a", .int ⟨1, by decide⟩)]]⟩

/-- Its text is refused, although nothing is wrong with its numbers, names or nesting. -/
theorem disguised_not_reread :
    Readable disguised.params ∧ Request.parse? (new.encode disguised).1.body = none := by
  refine ⟨⟨by decide, by decide +kernel, by decide⟩, ?_⟩
  rw [← Option.isNone_iff_eq_none]
  decide +kernel

end Encoder

end Rpc

end Countersign
