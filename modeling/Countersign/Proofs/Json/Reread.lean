import Countersign.Json.Reading
import Countersign.Json.Record
import Countersign.Proofs.Json.Members

set_option autoImplicit false

/-!
# Values read back

What a value is written as means the value again, if its members are in order and it is
not nested too deep, with one exception: an object that begins with the embedding name is
read as an embedding. So a value comes back exactly if no object in it begins that way.
-/

namespace Countersign.Json

/-! ### The value of a written tree -/

mutual
def nesting : Json → Nat
  | .arr items => itemNesting items + 1
  | .obj members => memberNesting members + 1
  | _ => 0

def itemNesting : List Json → Nat
  | [] => 0
  | item :: rest => max item.nesting (itemNesting rest)

def memberNesting : List (String × Json) → Nat
  | [] => 0
  | (_, value) :: rest => max value.nesting (memberNesting rest)
end

theorem itemNesting_le_iff {items : List Json} {depth : Nat} :
    itemNesting items ≤ depth ↔ ∀ item ∈ items, item.nesting ≤ depth := by
  induction items with
  | nil => simp [itemNesting]
  | cons item items ih =>
    rw [itemNesting, Nat.max_le, ih, List.forall_mem_cons]

theorem memberNesting_le_iff {members : List (String × Json)} {depth : Nat} :
    memberNesting members ≤ depth ↔ ∀ member ∈ members, member.2.nesting ≤ depth := by
  induction members with
  | nil => simp [memberNesting]
  | cons member members ih =>
    rw [memberNesting, Nat.max_le, ih, List.forall_mem_cons]

namespace Tree

theorem embeds_ofMembers (members : List (String × Json)) :
    embeds (ofMembers members) = Json.embeds members := by
  match members with
  | [] => rfl
  | (name, value) :: rest => simp [ofMembers, embeds, Json.embeds, Part.text?_written]

theorem embeddedText?_ofMembers (members : List (String × Json)) :
    (embeddedText? (ofMembers members)).bind Json.parse? = embedded? members := by
  match members with
  | [] => rfl
  | [(name, value)] =>
    cases value with
    | str text => simp [ofMembers, ofJson, embeddedText?, embedded?, Part.text?_written]
    | _ => rfl
  | (name, value) :: next :: rest => simp [ofMembers, embeddedText?, embedded?]

end Tree

theorem names_asMembers? {members read : List (String × Json)}
    (succeeded : asMembers? members = some read) : read.map Prod.fst = members.map Prod.fst := by
  induction members generalizing read with
  | nil => simp_all [asMembers?]
  | cons member members ih =>
    obtain ⟨name, value⟩ := member
    rw [asMembers?] at succeeded
    split at succeeded
    · next value' rest' _ tail =>
      cases succeeded
      rw [List.map_cons, ih tail, List.map_cons]
    · cases succeeded

namespace Tree

mutual
/-- Reading the text of a value is looking through the value once more. -/
theorem value?_ofJson (value : Json) (exact : value.floatFree = true)
    (ordered : value.orderly = true) {depth : Nat} (shallow : value.nesting ≤ depth) :
    value? Json.parse? depth (ofJson value) = asValue? value := by
  match value with
  | .null => cases depth <;> rfl
  | .bool b => cases depth <;> rfl
  | .int n =>
    rw [ofJson, value?, Numeral.value?_ofInteger]
    rfl
  | .float x => simp [floatFree, all, isFloat] at exact
  | .str text =>
    rw [ofJson, value?, Part.text?_written]
    rfl
  | .arr items =>
    obtain ⟨depth, rfl⟩ : ∃ less, depth = less + 1 :=
      ⟨depth - 1, by rw [nesting] at shallow; omega⟩
    simp only [floatFree, all, Bool.and_eq_true] at exact
    simp only [orderly, all, Bool.and_eq_true] at ordered
    rw [nesting] at shallow
    rw [ofJson, value?, values?_ofItems items exact.2 ordered.2 (by omega), asValue?]
  | .obj members =>
    obtain ⟨depth, rfl⟩ : ∃ less, depth = less + 1 :=
      ⟨depth - 1, by rw [nesting] at shallow; omega⟩
    simp only [floatFree, all, Bool.and_eq_true] at exact
    simp only [orderly, all, ascends, Bool.and_eq_true, decide_eq_true_eq] at ordered
    rw [nesting] at shallow
    rw [ofJson, value?, embeds_ofMembers, embeddedText?_ofMembers,
      members?_ofMembers members exact.2 ordered.2 (by omega), asValue?]
    congr 1
    cases read : asMembers? members with
    | none => rfl
    | some members' =>
      have ascending := names_asMembers? read ▸ ordered.1
      rw [Option.map_some, Option.map_some, ofMembers_of_ascending ascending]

theorem values?_ofItems (items : List Json) (exact : allItems (!·.isFloat) items = true)
    (ordered : allItems ascends items = true) {depth : Nat} (shallow : itemNesting items ≤ depth) :
    values? Json.parse? depth (ofItems items) = asValues? items := by
  match items with
  | [] => cases depth <;> rfl
  | item :: rest =>
    rw [allItems, Bool.and_eq_true] at exact ordered
    rw [itemNesting] at shallow
    rw [ofItems, values?, value?_ofJson item exact.1 ordered.1 (by omega),
      values?_ofItems rest exact.2 ordered.2 (by omega)]
    rfl

theorem members?_ofMembers (members : List (String × Json))
    (exact : allMembers (!·.isFloat) members = true)
    (ordered : allMembers ascends members = true) {depth : Nat}
    (shallow : memberNesting members ≤ depth) :
    members? Json.parse? depth (ofMembers members) = asMembers? members := by
  match members with
  | [] => cases depth <;> rfl
  | (name, value) :: rest =>
    rw [allMembers, Bool.and_eq_true] at exact ordered
    rw [memberNesting] at shallow
    rw [ofMembers, members?, Part.text?_written, value?_ofJson value exact.1 ordered.1 (by omega),
      members?_ofMembers rest exact.2 ordered.2 (by omega), asMembers?]
    cases asValue? value <;> cases asMembers? rest <;> rfl
end

end Tree

/-! ### Values that come back -/

def embedding : Json → Bool
  | .obj members => embeds members
  | _ => false

def embeddingFree (value : Json) : Bool := value.all (!·.embedding)

/-- An object with the embedding name alone was given members that begin with it. -/
theorem embeds_of_ofMembers {members : List (String × Json)} {value : Json}
    (same : ofMembers members = .obj [(embeddingName, value)]) : embeds members = true := by
  rw [ofMembers, Json.obj.injEq] at same
  cases members with
  | nil => cases same
  | cons member members =>
    have named : member.1 ∈ ([(embeddingName, value)] : List (String × Json)).map Prod.fst := by
      rw [← same, mem_names_foldl_putMember]
      simp
    rw [List.map_singleton, List.mem_singleton] at named
    rw [embeds, named, beq_self_eq_true]

/-- An object with the embedding name alone. No text is read as one, since its text is an
embedding. -/
def lone : Json → Bool
  | .obj [(name, _)] => name == embeddingName
  | _ => false

def loneFree (value : Json) : Bool := value.all (!·.lone)

theorem lone_iff {value : Json} :
    value.lone = true ↔ ∃ inner, value = .obj [(embeddingName, inner)] := by
  constructor
  · intro alone
    unfold lone at alone
    split at alone
    · next name inner => exact ⟨inner, by rw [beq_iff_eq.mp alone]⟩
    · cases alone
  · rintro ⟨inner, rfl⟩
    exact beq_self_eq_true _

theorem loneFree_obj_iff {members : List (String × Json)} :
    (obj members).loneFree = true ↔
      (obj members).lone = false ∧ ∀ member ∈ members, member.2.loneFree = true := by
  rw [loneFree, all, Bool.and_eq_true, Bool.not_eq_true', allMembers_iff]
  rfl

theorem loneFree_arr_iff {items : List Json} :
    (arr items).loneFree = true ↔ ∀ item ∈ items, item.loneFree = true := by
  rw [loneFree, all, Bool.and_eq_true, allItems_iff]
  exact and_iff_right rfl

theorem loneFree_of_lookup {members : List (String × Json)} (free : (obj members).loneFree = true)
    {name : String} {value : Json} (found : members.lookup name = some value) :
    value.loneFree = true := by
  obtain ⟨before, behind, rfl, -⟩ := List.lookup_eq_some_iff.mp found
  exact (loneFree_obj_iff.mp free).2 (name, value) (by simp)

theorem loneFree_ofMembers {members : List (String × Json)} (plain : embeds members = false)
    (inner : ∀ member ∈ members, member.2.loneFree = true) : (ofMembers members).loneFree = true := by
  refine loneFree_obj_iff.mpr ⟨?_, ?_⟩
  · rw [Bool.eq_false_iff]
    intro alone
    obtain ⟨value, same⟩ := lone_iff.mp alone
    rw [embeds_of_ofMembers same] at plain
    cases plain
  · intro member among
    exact inner member ((mem_foldl_putMember members [] among).resolve_left (by simp))

namespace Tree

variable {embedded : String → Option Json} {depth : Nat}

theorem embeds_members? {members : List (List Part × Tree)} {read : List (String × Json)}
    (succeeded : members? embedded depth members = some read) :
    embeds members = Json.embeds read := by
  cases members with
  | nil =>
    rw [members?, Option.some.injEq] at succeeded
    rw [← succeeded]
    rfl
  | cons member members =>
    obtain ⟨name, value⟩ := member
    rw [members?] at succeeded
    split at succeeded
    · next named _ _ =>
      cases succeeded
      simp [embeds, Json.embeds, named]
    · cases succeeded

mutual
/-- No tree means a value with such an object in it. -/
theorem value?_loneFree
    (inner : ∀ text value, embedded text = some value → value.loneFree = true)
    (tree : Tree) {depth : Nat} {value : Json}
    (read : value? embedded depth tree = some value) : value.loneFree = true := by
  match tree, depth with
  | .null, _ =>
    rw [value?, Option.some.injEq] at read
    exact read ▸ rfl
  | .bool b, _ =>
    rw [value?, Option.some.injEq] at read
    exact read ▸ rfl
  | .num numeral, _ =>
    rw [value?, Numeral.value?] at read
    split at read
    · cases read
      rfl
    · obtain ⟨x, -, rfl⟩ := Option.map_eq_some_iff.mp read
      rfl
  | .str parts, _ =>
    rw [value?] at read
    obtain ⟨text, -, rfl⟩ := Option.map_eq_some_iff.mp read
    rfl
  | .arr items, 0 => simp [value?] at read
  | .obj members, 0 => simp [value?] at read
  | .arr items, depth + 1 =>
    rw [value?] at read
    obtain ⟨values, succeeded, rfl⟩ := Option.map_eq_some_iff.mp read
    exact loneFree_arr_iff.mpr (values?_loneFree inner items succeeded)
  | .obj members, depth + 1 =>
    rw [value?] at read
    split at read
    · obtain ⟨text, -, read⟩ := Option.bind_eq_some_iff.mp read
      exact inner text value read
    · next plain =>
      obtain ⟨members', succeeded, rfl⟩ := Option.map_eq_some_iff.mp read
      rw [embeds_members? succeeded, Bool.not_eq_true] at plain
      exact loneFree_ofMembers plain (members?_loneFree inner members succeeded)

theorem values?_loneFree
    (inner : ∀ text value, embedded text = some value → value.loneFree = true)
    (items : List Tree) {depth : Nat} {values : List Json}
    (read : values? embedded depth items = some values) :
    ∀ value ∈ values, value.loneFree = true := by
  match items with
  | [] =>
    rw [values?, Option.some.injEq] at read
    subst read
    nofun
  | item :: rest =>
    rw [values?] at read
    split at read
    · next first others =>
      cases read
      exact List.forall_mem_cons.mpr
        ⟨value?_loneFree inner item first, values?_loneFree inner rest others⟩
    · cases read

theorem members?_loneFree
    (inner : ∀ text value, embedded text = some value → value.loneFree = true)
    (members : List (List Part × Tree)) {depth : Nat} {read : List (String × Json)}
    (succeeded : members? embedded depth members = some read) :
    ∀ member ∈ read, member.2.loneFree = true := by
  match members with
  | [] =>
    rw [members?, Option.some.injEq] at succeeded
    subst succeeded
    nofun
  | (name, value) :: rest =>
    rw [members?] at succeeded
    split at succeeded
    · next _ first others =>
      cases succeeded
      exact List.forall_mem_cons.mpr
        ⟨value?_loneFree inner value first, members?_loneFree inner rest others⟩
    · cases succeeded
end

end Tree

theorem parseWithin_loneFree {fuel : Nat} {text : String} {value : Json}
    (read : parseWithin fuel text = some value) : value.loneFree = true := by
  induction fuel generalizing text value with
  | zero => cases read
  | succ fuel ih =>
    obtain ⟨tree, -, read⟩ := Option.bind_eq_some_iff.mp read
    exact Tree.value?_loneFree (fun _ _ => ih) tree read

theorem embedded?_ne_self {members : List (String × Json)} (embeds : embeds members = true) :
    embedded? members ≠ some (.obj members) := by
  unfold embedded?
  split
  · next name text =>
    intro read
    have free := (loneFree_obj_iff.mp (parseWithin_loneFree read)).1
    rw [lone] at free
    rw [Json.embeds, free] at embeds
    cases embeds
  · nofun

mutual
/-- A value is itself when it is looked through, exactly if nothing in it is an embedding. -/
theorem asValue?_eq_self_iff (value : Json) :
    asValue? value = some value ↔ value.embeddingFree = true := by
  match value with
  | .null => simp [asValue?, embeddingFree, all, embedding]
  | .bool b => simp [asValue?, embeddingFree, all, embedding]
  | .int n => simp [asValue?, embeddingFree, all, embedding]
  | .float x => simp [asValue?, embeddingFree, all, embedding]
  | .str text => simp [asValue?, embeddingFree, all, embedding]
  | .arr items =>
    have inner := asValues?_eq_self_iff items
    simpa [asValue?, embeddingFree, all, embedding] using inner
  | .obj members =>
    have inner := asMembers?_eq_self_iff members
    rw [asValue?, embeddingFree, all, embedding]
    split
    · next embeds => simp [embeds, embedded?_ne_self embeds]
    · next plain => simpa [plain] using inner

theorem asValues?_eq_self_iff (items : List Json) :
    asValues? items = some items ↔ allItems (!·.embedding) items = true := by
  match items with
  | [] => simp [asValues?, allItems]
  | item :: rest =>
    have first := asValue?_eq_self_iff item
    have others := asValues?_eq_self_iff rest
    rw [embeddingFree] at first
    rw [allItems, Bool.and_eq_true, ← first, ← others, asValues?]
    cases asValue? item <;> cases asValues? rest <;> simp

theorem asMembers?_eq_self_iff (members : List (String × Json)) :
    asMembers? members = some members ↔ allMembers (!·.embedding) members = true := by
  match members with
  | [] => simp [asMembers?, allMembers]
  | (name, value) :: rest =>
    have first := asValue?_eq_self_iff value
    have others := asMembers?_eq_self_iff rest
    rw [embeddingFree] at first
    rw [allMembers, Bool.and_eq_true, ← first, ← others, asMembers?]
    cases asValue? value <;> cases asMembers? rest <;> simp
end

end Countersign.Json
