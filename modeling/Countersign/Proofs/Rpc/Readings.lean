import Countersign.Proofs.Json.Fields
import Countersign.Proofs.Rpc.ErrorObjects

set_option autoImplicit false

/-!
# Two readings of an error object

An error object is read straight from a text, or from the value that the text is read as. Both
readings look for the same three parts, and they find them alike if no member is repeated. They
part only at embeddings: an embedding of the whole, of the code or of the message counts only in
the value, and data that is looked through once more can lose a null or be refused.
-/

namespace Countersign

namespace Rpc.Error

open Json (Tree last?)

/-! ### The parts of an error object -/

structure Parts (α : Type) where
  code : α
  message : α
  data : Option α

namespace Parts

variable {α β : Type}

def map (f : α → β) (parts : Parts α) : Parts β :=
  ⟨f parts.code, f parts.message, parts.data.map f⟩

def ofFields? : (code message data : Option α) → Option (Parts α)
  | some code, some message, data => some ⟨code, message, data⟩
  | _, _, _ => none

def ofItems? : List α → Option (Parts α)
  | [code, message] => some ⟨code, message, none⟩
  | [code, message, data] => some ⟨code, message, some data⟩
  | _ => none

theorem ofFields?_map (f : α → β) (code message data : Option α) :
    ofFields? (code.map f) (message.map f) (data.map f) =
      (ofFields? code message data).map (map f) := by
  cases code <;> cases message <;> rfl

theorem ofItems?_map (f : α → β) (items : List α) :
    ofItems? (items.map f) = (ofItems? items).map (map f) := by
  match items with
  | [] => rfl
  | [_] => rfl
  | [_, _] => rfl
  | [_, _, _] => rfl
  | _ :: _ :: _ :: _ :: _ => rfl

def ofTree? : Tree → Option (Parts Tree)
  | .obj trees =>
    (Tree.fields? trees).bind fun fields =>
      match Tree.field? "code" fields, Tree.field? "message" fields,
          Tree.field? "data" fields with
      | some code, some message, some data => ofFields? code message data
      | _, _, _ => none
  | .arr items => ofItems? items
  | _ => none

def ofJson? : Json → Option (Parts Json)
  | .obj members =>
    ofFields? (members.lookup "code") (members.lookup "message") (members.lookup "data")
  | .arr items => ofItems? items
  | _ => none

end Parts

theorem ofTree?_eq (tree : Tree) :
    ofTree? tree = (Parts.ofTree? tree).bind fun parts =>
      ofTrees? (Json.maxDepth - 1) parts.code parts.message parts.data := by
  match tree with
  | .null => rfl
  | .bool _ => rfl
  | .num _ => rfl
  | .str _ => rfl
  | .arr [] => rfl
  | .arr [_] => rfl
  | .arr [_, _] => rfl
  | .arr [_, _, _] => rfl
  | .arr (_ :: _ :: _ :: _ :: _) => rfl
  | .obj trees =>
    rw [ofTree?, Parts.ofTree?]
    cases Tree.fields? trees with
    | none => rfl
    | some fields =>
      simp only [Option.bind_some]
      rcases Tree.field? "code" fields with _ | _ | code <;>
        rcases Tree.field? "message" fields with _ | _ | message <;>
        cases Tree.field? "data" fields <;> rfl

theorem ofJson?_eq (value : Json) :
    ofJson? value = (Parts.ofJson? value).bind fun parts =>
      ofParts? parts.code parts.message parts.data := by
  match value with
  | .null => rfl
  | .bool _ => rfl
  | .int _ => rfl
  | .float _ => rfl
  | .str _ => rfl
  | .arr [] => rfl
  | .arr [_] => rfl
  | .arr [_, _] => rfl
  | .arr [_, _, _] => rfl
  | .arr (_ :: _ :: _ :: _ :: _) => rfl
  | .obj members =>
    rw [ofJson?, Parts.ofJson?]
    cases members.lookup "code" <;> cases members.lookup "message" <;> rfl

/-- Both readings find the same parts. -/
theorem Parts.ofTree?_map {depth : Nat} {tree : Tree} {value : Json}
    (plain : tree.isEmbedding = false) (unrepeated : tree.unrepeated = true)
    (read : tree.toJson? (depth + 1) = some value) :
    (ofTree? tree).map (map (Tree.toJson? depth)) = (ofJson? value).map (map some) := by
  cases Tree.means_of_plain plain read with
  | @arr inner items values deep alike =>
    cases Nat.succ.inj deep
    rw [ofTree?, ofJson?, ← ofItems?_map, ← ofItems?_map, alike]
  | @obj inner trees members deep found =>
    cases Nat.succ.inj deep
    obtain ⟨fields, named, alike⟩ := Tree.exists_fields? found
    have distinct : (fields.map Prod.fst).Nodup := by
      have names := of_decide_eq_true unrepeated
      rw [Tree.names_fields? named] at names
      exact List.Pairwise.of_map some (fun _ _ differ same => differ (congrArg some same)) names
    obtain ⟨code, coded⟩ := Tree.exists_field? distinct "code"
    obtain ⟨message, worded⟩ := Tree.exists_field? distinct "message"
    obtain ⟨data, given⟩ := Tree.exists_field? distinct "data"
    rw [ofTree?, named, Option.bind_some, coded, worded, given, Json.ofMembers, ofJson?,
      Json.lookup_foldl_putMember, Json.lookup_foldl_putMember, Json.lookup_foldl_putMember]
    simp only [← ofFields?_map, alike.last?_eq coded, alike.last?_eq worded, alike.last?_eq given]
  | _ => rfl

/-! ### Where the readings part -/

theorem optional?_of_ne_null {tree : Tree} (nonnull : tree ≠ .null) (depth : Nat) :
    Tree.optional? depth (some tree) = (tree.toJson? depth).map some := by
  cases tree <;> first | rfl | exact absurd rfl nonnull

/-- Data is read alike, exactly if it is not an embedded null and stays what it is when it is
looked through. -/
theorem optional?_eq_dataOf?_iff {depth : Nat} {tree : Option Tree} {value : Option Json}
    (alike : tree.map (Tree.toJson? depth) = value.map some) :
    Tree.optional? depth tree = dataOf? value ↔
      ∀ found, Tree.optional? depth tree = some found →
        found ≠ some .null ∧ ∀ data ∈ found, data.embeddingFree = true := by
  match tree, value, alike with
  | none, none, _ => simp [Tree.optional?, dataOf?]
  | some tree, some value, alike =>
    have read : tree.toJson? depth = some value := Option.some.inj alike
    by_cases null : tree = .null
    · subst null
      rw [Tree.toJson?, Tree.value?, Option.some.injEq] at read
      subst read
      simp [Tree.optional?, dataOf?, Json.asOption?]
    · rw [optional?_of_ne_null null, read, Option.map_some, eq_comm, dataOf?_eq_some_iff,
        Json.asValue?_eq_self_iff]
      simp

theorem ofTrees?_of_embedding {depth : Nat} {code message : Tree} {data : Option Tree}
    (embedding : code.isEmbedding = true ∨ message.isEmbedding = true) :
    ofTrees? depth code message data = none := by
  rcases embedding with coded | worded
  · rw [ofTrees?, Tree.asInteger?_of_embedding coded]
    rfl
  · rw [ofTrees?, Tree.asString?_of_embedding worded]
    cases code.asInteger?.bind Integer.toInt64? <;> rfl

section Read

variable {number : Int64} {words : String}

theorem ofTrees?_of_read {code message : Tree}
    (coded : code.asInteger?.bind Integer.toInt64? = some number)
    (worded : message.asString? = some words) (depth : Nat) (data : Option Tree) :
    ofTrees? depth code message data = (Tree.optional? depth data).map (mk number words) := by
  rw [ofTrees?, coded, worded]
  cases Tree.optional? depth data <;> rfl

theorem ofParts?_of_read {code message : Json} (coded : code.asInt64? = some number)
    (worded : message.asString? = some words) (data : Option Json) :
    ofParts? code message data = (dataOf? data).map (mk number words) := by
  rw [ofParts?, coded, worded]
  cases dataOf? data <;> rfl

end Read

/-- The parts of a text and of its value make the same error, exactly if neither the code nor the
message is an embedding that the value has seen through, and the data is read alike. -/
theorem ofTrees?_eq_ofParts?_iff {depth : Nat} {trees : Parts Tree} {values : Parts Json}
    (alike : trees.map (Tree.toJson? depth) = values.map some) :
    ofTrees? depth trees.code trees.message trees.data =
        ofParts? values.code values.message values.data ↔
      ((ofParts? values.code values.message values.data).isSome = true →
        trees.code.isEmbedding = false ∧ trees.message.isEmbedding = false) ∧
      ∀ e, ofTrees? depth trees.code trees.message trees.data = some e →
        e.data ≠ some .null ∧ ∀ data ∈ e.data, data.embeddingFree = true := by
  obtain ⟨coded, worded, given⟩ := Parts.mk.inj alike
  by_cases embedding : trees.code.isEmbedding = true ∨ trees.message.isEmbedding = true
  · rw [ofTrees?_of_embedding embedding]
    have seen : ¬(trees.code.isEmbedding = false ∧ trees.message.isEmbedding = false) := by
      rintro ⟨coded, worded⟩
      rw [coded, worded] at embedding
      simp at embedding
    cases ofParts? values.code values.message values.data <;> simp [seen]
  · rw [not_or, Bool.not_eq_true, Bool.not_eq_true] at embedding
    have number := (Tree.means_of_plain embedding.1 coded).asInteger?_eq
    have words := (Tree.means_of_plain embedding.2 worded).asString?_eq
    rw [and_iff_right fun _ => embedding]
    cases coded : values.code.asInt64? with
    | none => simp [ofTrees?, ofParts?, number, coded]
    | some code =>
      cases worded : values.message.asString? with
      | none => simp [ofTrees?, ofParts?, words, worded]
      | some message =>
        rw [ofTrees?_of_read (number.trans coded) (words.trans worded),
          ofParts?_of_read coded worded, Option.map_inj_right fun _ _ same => (mk.inj same).2.2,
          optional?_eq_dataOf?_iff given]
        simp [Option.map_eq_some_iff]

/-- A text that is an embedding is no error object, whatever it stands for. -/
theorem ofTree?_of_embedding {depth : Nat} {tree : Tree} (embedding : tree.isEmbedding = true)
    {value : Json} (read : tree.toJson? (depth + 1) = some value) : ofTree? tree = none := by
  cases tree with
  | obj trees =>
    rw [Tree.isEmbedding] at embedding
    rw [Tree.toJson?, Tree.value?, if_pos embedding] at read
    obtain ⟨text, held, -⟩ := Option.bind_eq_some_iff.mp read
    unfold Tree.embeddedText? at held
    split at held
    · rw [Tree.embeds, beq_iff_eq] at embedding
      simp [ofTree?, Tree.fields?, embedding, Tree.field?, Json.embeddingName]
    · cases held
  | _ => cases embedding

/-- The whole text, its code or its message is an embedding. -/
def embedded (tree : Tree) : Bool :=
  tree.isEmbedding || (Parts.ofTree? tree).any fun parts =>
    parts.code.isEmbedding || parts.message.isEmbedding

theorem ofTree?_eq_ofJson?_iff {tree : Tree} {value : Json} (unrepeated : tree.unrepeated = true)
    (read : tree.toJson? Json.maxDepth = some value) :
    ofTree? tree = ofJson? value ↔
      ((ofJson? value).isSome = true → embedded tree = false) ∧
      ∀ e, ofTree? tree = some e →
        e.data ≠ some .null ∧ ∀ data ∈ e.data, data.embeddingFree = true := by
  cases plain : tree.isEmbedding with
  | true =>
    rw [ofTree?_of_embedding plain read]
    cases ofJson? value <;> simp [embedded, plain]
  | false =>
    have alike : (Parts.ofTree? tree).map (Parts.map (Tree.toJson? (Json.maxDepth - 1))) =
        (Parts.ofJson? value).map (Parts.map some) := Parts.ofTree?_map plain unrepeated read
    rw [ofTree?_eq, ofJson?_eq]
    match trees : Parts.ofTree? tree, values : Parts.ofJson? value, alike with
    | none, none, _ => simp
    | some trees, some values, alike =>
      have parts := ofTrees?_eq_ofParts?_iff (Option.some.inj alike)
      simpa [embedded, plain, trees] using parts

/-! ### Texts without the embedding name -/

theorem Parts.clear_of_ofTree? {tree : Tree} {parts : Parts Tree} (clear : tree.clear = true)
    (found : ofTree? tree = some parts) :
    parts.code.clear = true ∧ parts.message.clear = true ∧
      ∀ data ∈ parts.data, data.clear = true := by
  cases tree with
  | arr items =>
    have each := Tree.clearItems_iff.mp clear
    rw [ofTree?] at found
    unfold ofItems? at found
    split at found
    · cases found
      simpa using each
    · cases found
      simpa using each
    · cases found
  | obj trees =>
    obtain ⟨fields, listed, found⟩ := Option.bind_eq_some_iff.mp found
    have each : ∀ name tree, Tree.field? name fields = some (some tree) → tree.clear = true := by
      intro name tree only
      obtain ⟨written, present, -, same⟩ := Tree.mem_fields? listed (Tree.mem_of_field? only).1
      have inside := (Tree.clearMembers_iff.mp clear written present).2
      rwa [same] at inside
    split at found
    · next code message data coded worded given =>
      unfold ofFields? at found
      split at found
      · cases found
        refine ⟨each _ _ coded, each _ _ worded, ?_⟩
        rintro tree rfl
        exact each _ _ given
      · cases found
    · cases found
  | _ => cases found

theorem embedded_of_clear {tree : Tree} (clear : tree.clear = true) : embedded tree = false := by
  rw [embedded, Tree.isEmbedding_of_clear clear, Bool.false_or]
  cases found : Parts.ofTree? tree with
  | none => rfl
  | some parts =>
    obtain ⟨code, message, -⟩ := Parts.clear_of_ofTree? clear found
    rw [Option.any_some, Tree.isEmbedding_of_clear code, Tree.isEmbedding_of_clear message]
    rfl

theorem optional?_of_ofTrees? {depth : Nat} {code message : Tree} {data : Option Tree} {e : Error}
    (read : ofTrees? depth code message data = some e) :
    Tree.optional? depth data = some e.data := by
  unfold ofTrees? at read
  split at read
  · next given =>
    cases read
    exact given
  · cases read

theorem optional?_of_clear {depth : Nat} {tree : Option Tree} {found : Option Json}
    (clear : ∀ data ∈ tree, data.clear = true) (read : Tree.optional? depth tree = some found) :
    found ≠ some .null ∧ ∀ data ∈ found, data.embeddingFree = true := by
  cases tree with
  | none =>
    cases read
    simp
  | some data =>
    by_cases null : data = .null
    · subst null
      cases read
      simp
    · rw [optional?_of_ne_null null] at read
      obtain ⟨value, valued, rfl⟩ := Option.map_eq_some_iff.mp read
      have means := Tree.means_of_plain (Tree.isEmbedding_of_clear (clear data rfl)) valued
      refine ⟨?_, ?_⟩
      · rintro ⟨⟩
        exact null means.eq_null
      · rintro _ ⟨⟩
        exact Tree.embeddingFree_of_clear (clear data rfl) valued

theorem data_of_clear {tree : Tree} (clear : tree.clear = true) {e : Error}
    (read : ofTree? tree = some e) :
    e.data ≠ some .null ∧ ∀ data ∈ e.data, data.embeddingFree = true := by
  rw [ofTree?_eq] at read
  obtain ⟨parts, found, read⟩ := Option.bind_eq_some_iff.mp read
  exact optional?_of_clear (Parts.clear_of_ofTree? clear found).2.2 (optional?_of_ofTrees? read)

/-! ### The readings compared -/

/-- A text in which no member is repeated is read straight as an error just as its value is,
exactly if the value is not read as one through an embedding of the whole, the code or the
message, and the text is not read as one whose data is null or has an object in it that begins
with the embedding name. So the readings agree on every text without that name. -/
theorem readings_agree_iff {text : String} {tree : Tree} {value : Json}
    (parsed : Tree.parse? text = some tree) (read : Json.parse? text = some value)
    (unrepeated : tree.unrepeated = true) :
    (parse? text = ofJson? value ↔
      ((ofJson? value).isSome = true → embedded tree = false) ∧
      ∀ e, parse? text = some e →
        e.data ≠ some .null ∧ ∀ data ∈ e.data, data.embeddingFree = true) ∧
    (tree.clear = true → parse? text = ofJson? value) := by
  rw [Json.parse?_eq, parsed, Option.bind_some] at read
  rw [parse?, parsed, Option.bind_some]
  have agree := ofTree?_eq_ofJson?_iff unrepeated read
  refine ⟨agree, ?_⟩
  intro clear
  exact agree.mpr ⟨fun _ => embedded_of_clear clear, fun _ => data_of_clear clear⟩

def scattered : List (String × Json) :=
  [("message", .str "a\"b\né"), ("x", .obj [("code", .null)]), ("data", .arr [.null, .obj []]),
    ("Code", .bool true), ("code", .int (Integer.ofInt64 Int64.minValue))]

theorem scattered_read_alike :
    (Tree.ofJson (.obj scattered)).unrepeated = true ∧
      Json.parse? (Json.obj scattered).compact = some (.ofMembers scattered) ∧
      parse? (Json.obj scattered).compact = ofJson? (.ofMembers scattered) ∧
      ofJson? (.ofMembers scattered) =
        some ⟨Int64.minValue, "a\"b\né", some (.arr [.null, .obj []])⟩ := by
  have listed : Json.Lists (Json.obj scattered).compact scattered :=
    Json.lists_compact rfl (by decide +kernel) (by decide) rfl rfl
  have parsed := Tree.parse?_compact (show (Json.obj scattered).floatFree = true from rfl)
  have unrepeated : (Tree.ofJson (.obj scattered)).unrepeated = true := by decide +kernel
  refine ⟨unrepeated, listed.parse?_eq, ?_, by rfl⟩
  exact (readings_agree_iff parsed listed.parse?_eq unrepeated).2 (by decide +kernel)

def veiled : Json := .arr [.ofUInt64 1, .str "m", .obj [(Json.embeddingName, .str "null")]]

/-- The text is read as an error with null for its data, and its value as one without data. -/
theorem veiled_read_apart :
    veiled.compact = "[1,\"m\",\x7b\"$serde_json::private::RawValue\":\"null\"\x7d]" ∧
      (∃ tree, Tree.parse? veiled.compact = some tree ∧ tree.unrepeated = true) ∧
      Json.parse? veiled.compact = some (.arr [.ofUInt64 1, .str "m", .null]) ∧
      parse? veiled.compact = some ⟨1, "m", some .null⟩ ∧
      ofJson? (.arr [.ofUInt64 1, .str "m", .null]) = some ⟨1, "m", none⟩ := by
  have parsed := Tree.parse?_compact (show veiled.floatFree = true from rfl)
  have null : Json.parse? "null" = some .null := by
    have printed : "null" = Json.null.compact := by decide +kernel
    rw [printed, Json.parse?_compact rfl rfl (by decide)]
    rfl
  have looked : Json.asValue? (.obj [(Json.embeddingName, .str "null")]) = some .null := by
    rw [Json.asValue?_embedding, null]
  refine ⟨by decide +kernel, ⟨_, parsed, rfl⟩, ?_, ?_, rfl⟩
  · rw [Json.parse?_compact rfl (by decide +kernel) (by decide), veiled, Json.asValue?,
      Json.asValues?, Json.asValues?, Json.asValues?, looked]
    rfl
  · have data : (Tree.ofJson (.obj [(Json.embeddingName, .str "null")])).toJson?
        (Json.maxDepth - 1) = some .null := by
      rw [← looked]
      exact Tree.value?_ofJson _ rfl (by decide +kernel) (by decide)
    have number : (Tree.ofJson (.ofUInt64 1)).asInteger?.bind Integer.toInt64? = some 1 := by
      rw [Json.ofUInt64, Tree.ofJson, Tree.asInteger?, Json.Numeral.value?_ofInteger]
      rfl
    have words : (Tree.ofJson (.str "m")).asString? = some "m" := Json.Part.text?_written "m"
    have parts : Parts.ofTree? (Tree.ofJson veiled) =
        some ⟨.ofJson (.ofUInt64 1), .ofJson (.str "m"),
          some (.ofJson (.obj [(Json.embeddingName, .str "null")]))⟩ := rfl
    have nonnull : Tree.ofJson (.obj [(Json.embeddingName, .str "null")]) ≠ .null := by
      rw [Tree.ofJson]
      intro same
      cases same
    rw [parse?, parsed, Option.bind_some, ofTree?_eq, parts, Option.bind_some,
      ofTrees?_of_read number words, optional?_of_ne_null nonnull, data]
    rfl

end Rpc.Error

end Countersign
