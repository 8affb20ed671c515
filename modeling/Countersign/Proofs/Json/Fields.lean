import Countersign.Proofs.Json.Objects

set_option autoImplicit false

/-!
# Fields and values

A record reads the fields of an object straight from its tree, by their names. Where no name is
repeated, the field of a name is the last member of that name in the value. A tree that is no
embedding and its value are of one kind, and where no member of a tree has the embedding name,
none of the objects in its value begins with it.
-/

namespace Countersign

namespace Json.Tree

def isEmbedding : Tree → Bool
  | .obj members => embeds members
  | _ => false

/-- No member of the object is named twice. Objects inside of it may repeat theirs. -/
def unrepeated : Tree → Bool
  | .obj members => decide ((members.map fun member => Part.text? member.1).Nodup)
  | _ => true

/-! ### Fields and members -/

def ReadAs (depth : Nat) (fields : List (String × Tree)) (members : List (String × Json)) : Prop :=
  fields.map (fun field => (field.2.toJson? depth).map (field.1, ·)) = members.map some

section Fields

variable {depth : Nat} {trees : List (List Part × Tree)} {fields : List (String × Tree)}
  {members : List (String × Json)}

/-- An object whose members can be read has fields. -/
theorem exists_fields? (read : members? Json.parse? depth trees = some members) :
    ∃ fields, fields? trees = some fields ∧ ReadAs depth fields members := by
  induction trees generalizing members with
  | nil =>
    rw [members?, Option.some.injEq] at read
    subst read
    exact ⟨[], rfl, rfl⟩
  | cons tree trees ih =>
    obtain ⟨first, others, rfl, named, valued, rest⟩ := members?_cons_eq_some_iff.mp read
    obtain ⟨fields, found, alike⟩ := ih rest
    refine ⟨(first.1, tree.2) :: fields, ?_, ?_⟩
    · rw [fields?, named, found]
    · rw [ReadAs, List.map_cons, List.map_cons, alike, toJson?, valued]
      rfl

theorem names_fields? (found : fields? trees = some fields) :
    (trees.map fun tree => Part.text? tree.1) = (fields.map Prod.fst).map some := by
  induction trees generalizing fields with
  | nil =>
    rw [fields?, Option.some.injEq] at found
    subst found
    rfl
  | cons tree trees ih =>
    rw [fields?] at found
    split at found
    · next named rest =>
      cases found
      rw [List.map_cons, named, ih rest]
      rfl
    · cases found

theorem mem_fields? (found : fields? trees = some fields) {field : String × Tree}
    (among : field ∈ fields) :
    ∃ tree ∈ trees, Part.text? tree.1 = some field.1 ∧ tree.2 = field.2 := by
  induction trees generalizing fields with
  | nil =>
    rw [fields?, Option.some.injEq] at found
    subst found
    cases among
  | cons tree trees ih =>
    rw [fields?] at found
    split at found
    · next named rest =>
      cases found
      rcases List.mem_cons.mp among with rfl | later
      · exact ⟨tree, List.mem_cons_self, named, rfl⟩
      · obtain ⟨other, present, same⟩ := ih rest later
        exact ⟨other, List.mem_cons_of_mem _ present, same⟩
    · cases found

theorem ReadAs.mem_iff (alike : ReadAs depth fields members) {member : String × Json} :
    member ∈ members ↔ ∃ field ∈ fields, field.1 = member.1 ∧
      field.2.toJson? depth = some member.2 := by
  have listed : member ∈ members ↔ some member ∈ members.map some := by simp
  have whole : ∀ field : String × Tree, (field.2.toJson? depth).map (field.1, ·) = some member ↔
      field.1 = member.1 ∧ field.2.toJson? depth = some member.2 := by
    intro field
    rw [Option.map_eq_some_iff]
    constructor
    · rintro ⟨value, read, rfl⟩
      exact ⟨rfl, read⟩
    · rintro ⟨named, read⟩
      exact ⟨member.2, read, Prod.ext named rfl⟩
  rw [listed, ← alike, List.mem_map]
  simp only [whole]

theorem mem_of_field? {name : String} {tree : Tree} (only : field? name fields = some (some tree)) :
    (name, tree) ∈ fields ∧ ∀ field ∈ fields, field.1 = name → field.2 = tree := by
  unfold field? at only
  split at only
  · cases only
  · next field one =>
    cases only
    have among : ∀ other, other ∈ fields ∧ other.1 = name ↔ other = field := by
      intro other
      rw [← @List.mem_singleton _ other, ← one, List.mem_filter, beq_iff_eq]
    obtain ⟨there, rfl⟩ := (among field).mpr rfl
    refine ⟨there, ?_⟩
    intro other present same
    rw [(among other).mp ⟨present, same⟩]
  · cases only

theorem not_mem_of_field? {name : String} (absent : field? name fields = some none) :
    ∀ field ∈ fields, field.1 ≠ name := by
  unfold field? at absent
  split at absent
  · next nothing => simpa using nothing
  · cases absent
  · cases absent

/-- A field that is not repeated is the last member of its name. -/
theorem ReadAs.last?_eq (alike : ReadAs depth fields members) {name : String} {found : Option Tree}
    (single : field? name fields = some found) :
    found.map (toJson? depth) = (last? name members).map some := by
  cases found with
  | none =>
    have absent : last? name members = none := by
      rw [last?, List.lookup_eq_none_iff]
      intro member among
      obtain ⟨field, present, same, -⟩ := alike.mem_iff.mp (List.mem_reverse.mp among)
      rw [bne_iff_ne, ← same]
      exact (not_mem_of_field? single field present).symm
    rw [absent]
    rfl
  | some tree =>
    obtain ⟨present, only⟩ := mem_of_field? single
    have valued : ∃ value, tree.toJson? depth = some value := by
      have kept : ((tree.toJson? depth).map (name, ·)) ∈ members.map some :=
        alike ▸ List.mem_map.mpr ⟨_, present, rfl⟩
      obtain ⟨member, -, same⟩ := List.mem_map.mp kept
      obtain ⟨value, read, -⟩ := Option.map_eq_some_iff.mp same.symm
      exact ⟨value, read⟩
    obtain ⟨value, valued⟩ := valued
    have last : last? name members = some value := by
      refine last?_of_agreeing (alike.mem_iff.mpr ⟨_, present, rfl, valued⟩) ?_
      intro member among same
      obtain ⟨field, there, named, read⟩ := alike.mem_iff.mp among
      rw [only field there (named.trans same), valued, Option.some.injEq] at read
      exact read.symm
    rw [last, Option.map_some, Option.map_some, valued]

/-- Where no name is repeated, there is one field of a name or none. -/
theorem exists_field? (distinct : (fields.map Prod.fst).Nodup) (name : String) :
    ∃ found, field? name fields = some found := by
  unfold field?
  split
  · exact ⟨_, rfl⟩
  · exact ⟨_, rfl⟩
  · next none several =>
    exfalso
    match same : fields.filter (·.1 == name) with
    | [] => exact none same
    | [field] => exact several field same
    | first :: second :: rest =>
      have named : ∀ field ∈ first :: second :: rest, field.1 = name := by
        intro field among
        rw [← same] at among
        simpa using (List.mem_filter.mp among).2
      have twice := same ▸ distinct.sublist (List.filter_sublist.map Prod.fst)
      rw [List.map_cons, List.map_cons, List.nodup_cons] at twice
      apply twice.1
      rw [named first (by simp), named second (by simp)]
      exact List.mem_cons_self

end Fields

/-! ### Trees that are no embeddings -/

/-- How a tree that is no embedding and its value belong together. -/
inductive Means (depth : Nat) : Tree → Json → Prop
  | null : Means depth .null .null
  | bool (b : Bool) : Means depth (.bool b) (.bool b)
  | int {numeral : Numeral} {n : Integer} :
    numeral.value? = some (.int n) → Means depth (.num numeral) (.int n)
  | float {numeral : Numeral} {x : Binary64} :
    numeral.value? = some (.float x) → Means depth (.num numeral) (.float x)
  | str {parts : List Part} {text : String} :
    Part.text? parts = some text → Means depth (.str parts) (.str text)
  | arr {inner : Nat} {items : List Tree} {values : List Json} :
    depth = inner + 1 → items.map (toJson? inner) = values.map some →
      Means depth (.arr items) (.arr values)
  | obj {inner : Nat} {trees : List (List Part × Tree)} {members : List (String × Json)} :
    depth = inner + 1 → members? Json.parse? inner trees = some members →
      Means depth (.obj trees) (.ofMembers members)

theorem values?_eq_some {depth : Nat} {items : List Tree} {values : List Json}
    (read : values? Json.parse? depth items = some values) :
    items.map (toJson? depth) = values.map some := by
  induction items generalizing values with
  | nil =>
    rw [values?, Option.some.injEq] at read
    subst read
    rfl
  | cons item items ih =>
    rw [values?] at read
    split at read
    · next first others =>
      cases read
      rw [List.map_cons, List.map_cons, toJson?, first, ih others]
    · cases read

theorem means_of_plain {depth : Nat} {tree : Tree} {value : Json} (plain : tree.isEmbedding = false)
    (read : tree.toJson? depth = some value) : Means depth tree value := by
  rw [toJson?] at read
  cases tree with
  | null =>
    rw [value?, Option.some.injEq] at read
    exact read ▸ .null
  | bool b =>
    rw [value?, Option.some.injEq] at read
    exact read ▸ .bool b
  | num numeral =>
    rw [value?] at read
    have number := read
    rw [Numeral.value?] at number
    split at number
    · cases number
      exact .int read
    · obtain ⟨x, -, rfl⟩ := Option.map_eq_some_iff.mp number
      exact .float read
  | str parts =>
    rw [value?] at read
    obtain ⟨text, spelled, rfl⟩ := Option.map_eq_some_iff.mp read
    exact .str spelled
  | arr items =>
    cases depth with
    | zero => simp [value?] at read
    | succ depth =>
      rw [value?] at read
      obtain ⟨values, found, rfl⟩ := Option.map_eq_some_iff.mp read
      exact .arr rfl (values?_eq_some found)
  | obj trees =>
    cases depth with
    | zero => simp [value?] at read
    | succ depth =>
      rw [isEmbedding] at plain
      rw [value?, plain] at read
      obtain ⟨members, found, rfl⟩ := Option.map_eq_some_iff.mp read
      exact .obj rfl found

section Means

variable {depth : Nat} {tree : Tree} {value : Json}

/-- Whoever wants a whole number gets the same from a tree and from its value. -/
theorem Means.asInteger?_eq (means : Means depth tree value) :
    tree.asInteger?.bind Integer.toInt64? = value.asInt64? := by
  cases means with
  | int read | float read =>
    rw [asInteger?, read]
    rfl
  | _ => rfl

theorem Means.asString?_eq (means : Means depth tree value) : tree.asString? = value.asString? := by
  cases means with
  | str spelled => exact spelled
  | _ => rfl

theorem Means.eq_null (means : Means depth tree .null) : tree = .null := by
  cases means
  rfl

end Means

/-! ### Trees without the embedding name -/

mutual
def clear : Tree → Bool
  | .arr items => clearItems items
  | .obj members => clearMembers members
  | _ => true

def clearItems : List Tree → Bool
  | [] => true
  | item :: rest => item.clear && clearItems rest

def clearMembers : List (List Part × Tree) → Bool
  | [] => true
  | (name, value) :: rest =>
    Part.text? name != some embeddingName && value.clear && clearMembers rest
end

theorem clearItems_iff {items : List Tree} :
    clearItems items = true ↔ ∀ item ∈ items, item.clear = true := by
  induction items with
  | nil => simp [clearItems]
  | cons item rest ih => simp [clearItems, ih]

theorem clearMembers_iff {members : List (List Part × Tree)} :
    clearMembers members = true ↔
      ∀ member ∈ members, Part.text? member.1 ≠ some embeddingName ∧ member.2.clear = true := by
  induction members with
  | nil => simp [clearMembers]
  | cons member rest ih =>
    rw [clearMembers, Bool.and_eq_true, Bool.and_eq_true, bne_iff_ne, ih, List.forall_mem_cons]

theorem isEmbedding_of_clear {tree : Tree} (clear : tree.clear = true) :
    tree.isEmbedding = false := by
  cases tree with
  | obj members =>
    cases members with
    | nil => rfl
    | cons member rest =>
      rw [isEmbedding, embeds, beq_eq_false_iff_ne]
      exact (clearMembers_iff.mp clear member List.mem_cons_self).1
  | _ => rfl

theorem embeddingFree_ofMembers {members : List (String × Json)}
    (clear : ∀ member ∈ members, member.1 ≠ embeddingName ∧ member.2.embeddingFree = true) :
    (Json.ofMembers members).embeddingFree = true := by
  have kept : ∀ member ∈ members.foldl (fun sofar member => putMember member.1 member.2 sofar) [],
      member.1 ≠ embeddingName ∧ member.2.embeddingFree = true := by
    intro member among
    exact clear member ((mem_foldl_putMember members [] among).resolve_left List.not_mem_nil)
  rw [embeddingFree, Json.ofMembers, Json.all, Bool.and_eq_true, Bool.not_eq_true', allMembers_iff]
  revert kept
  generalize members.foldl (fun sofar member => putMember member.1 member.2 sofar) [] = ordered
  intro kept
  refine ⟨?_, fun member among => (kept member among).2⟩
  cases ordered with
  | nil => rfl
  | cons first rest => exact beq_eq_false_iff_ne.mpr (kept first List.mem_cons_self).1

/-- Where no member has the embedding name, no object in the value begins with it. -/
theorem embeddingFree_of_clear {depth : Nat} {tree : Tree} {value : Json}
    (clear : tree.clear = true) (read : tree.toJson? depth = some value) :
    value.embeddingFree = true := by
  -- what stands in an array or an object is read with one level less
  induction depth generalizing tree value with
  | zero =>
    cases means_of_plain (isEmbedding_of_clear clear) read with
    | arr deep | obj deep => cases deep
    | _ => rfl
  | succ depth ih =>
    cases means_of_plain (isEmbedding_of_clear clear) read with
    | @arr inner items values deep alike =>
      cases deep
      rw [embeddingFree, Json.all, Bool.and_eq_true, allItems_iff]
      refine ⟨rfl, ?_⟩
      intro value among
      have kept : some value ∈ items.map (toJson? depth) := alike ▸ List.mem_map_of_mem among
      obtain ⟨item, present, read⟩ := List.mem_map.mp kept
      exact ih (clearItems_iff.mp clear item present) read
    | @obj inner trees members deep found =>
      cases deep
      obtain ⟨fields, listed, alike⟩ := exists_fields? found
      refine embeddingFree_ofMembers ?_
      intro member among
      obtain ⟨field, there, named, read⟩ := alike.mem_iff.mp among
      obtain ⟨tree, present, titled, same⟩ := mem_fields? listed there
      obtain ⟨other, inside⟩ := clearMembers_iff.mp clear tree present
      refine ⟨?_, ih inside (same ▸ read)⟩
      intro embedding
      rw [titled, named, embedding] at other
      exact other rfl
    | _ => rfl

theorem asInteger?_of_embedding {tree : Tree} (embedding : tree.isEmbedding = true) :
    tree.asInteger? = none := by
  cases tree <;> first | rfl | cases embedding

theorem asString?_of_embedding {tree : Tree} (embedding : tree.isEmbedding = true) :
    tree.asString? = none := by
  cases tree <;> first | rfl | cases embedding

end Json.Tree

end Countersign
