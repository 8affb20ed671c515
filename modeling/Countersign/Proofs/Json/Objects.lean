import Countersign.Proofs.Json.Embedding

set_option autoImplicit false

/-!
# Texts of objects

A text that is an object has members in the order of the text, of which some may have one name.
The object that is read has the last of each name, unless the text begins with the embedding
name. Any texts of names and values make up the text of an object, and their members are its.
-/

namespace Countersign.Json

theorem Tree.members?_cons_eq_some_iff {embedded : String → Option Json} {depth : Nat}
    {name : List Part} {value : Tree} {rest : List (List Part × Tree)}
    {members : List (String × Json)} :
    members? embedded depth ((name, value) :: rest) = some members ↔
      ∃ first others, members = first :: others ∧ Part.text? name = some first.1 ∧
        value? embedded depth value = some first.2 ∧ members? embedded depth rest = some others := by
  rw [members?]
  constructor
  · intro read
    split at read
    · next named valued found =>
      cases read
      exact ⟨_, _, rfl, named, valued, found⟩
    · cases read
  · rintro ⟨first, others, rfl, named, valued, found⟩
    rw [named, valued, found]

/-! ### Members as they stand in a text -/

/-- The members of the object that a text is, in the order of the text and repeated ones too. -/
def membersOf? (text : String) : Option (List (String × Json)) :=
  match Tree.parse? text with
  | some (.obj members) => Tree.members? parse? (maxDepth - 1) members
  | _ => none

section Members

variable {text : String} {trees : List (List Part × Tree)} {members : List (String × Json)}

theorem membersOf?_of_obj (parsed : Tree.parse? text = some (.obj trees)) :
    membersOf? text = Tree.members? parse? (maxDepth - 1) trees := by
  rw [membersOf?, parsed]

theorem exists_obj_of_membersOf? (object : membersOf? text = some members) :
    ∃ trees, Tree.parse? text = some (.obj trees) := by
  unfold membersOf? at object
  split at object
  · next trees parsed => exact ⟨trees, parsed⟩
  · cases object

theorem parse?_of_obj (parsed : Tree.parse? text = some (.obj trees)) :
    parse? text =
      if Tree.embeds trees then (Tree.embeddedText? trees).bind parse?
      else (membersOf? text).map ofMembers := by
  rw [parse?_eq, parsed, membersOf?_of_obj parsed]
  rfl

/-- The text is an object with these members, in this order, and no embedding. -/
structure Lists (text : String) (members : List (String × Json)) : Prop where
  object : membersOf? text = some members
  plain : embeds members = false

/-- A text that lists members is read as the object of them. -/
theorem Lists.parse?_eq (listed : Lists text members) : parse? text = some (ofMembers members) := by
  obtain ⟨trees, parsed⟩ := exists_obj_of_membersOf? listed.object
  have read := membersOf?_of_obj parsed ▸ listed.object
  rw [parse?_of_obj parsed, Tree.embeds_members? read, listed.plain, listed.object]
  rfl

theorem members?_of_embedding {inner : String} (embedding : Tree.embeds trees = true)
    (held : Tree.embeddedText? trees = some inner) (depth : Nat) :
    Tree.members? parse? depth trees = some [(embeddingName, .str inner)] := by
  unfold Tree.embeddedText? at held
  split at held
  · next name parts =>
    rw [Tree.embeds, beq_iff_eq] at embedding
    simp only [Tree.members?, Tree.value?, embedding, held, Option.map_some]
  · cases held

/-- A text that begins with the embedding name has one member and is read as the text in it. -/
theorem parse?_of_embedding {value : Json} (object : membersOf? text = some members)
    (embedding : embeds members = true) (whole : parse? text = some value) :
    ∃ inner, members = [(embeddingName, .str inner)] ∧ parse? inner = some value := by
  obtain ⟨trees, parsed⟩ := exists_obj_of_membersOf? object
  have read := membersOf?_of_obj parsed ▸ object
  rw [← Tree.embeds_members? read] at embedding
  rw [parse?_of_obj parsed, embedding, if_pos rfl, Option.bind_eq_some_iff] at whole
  obtain ⟨inner, held, whole⟩ := whole
  rw [members?_of_embedding embedding held, Option.some.injEq] at read
  exact ⟨inner, read.symm, whole⟩

/-- Every object text that can be read has members. -/
theorem exists_membersOf? (parsed : Tree.parse? text = some (.obj trees)) {value : Json}
    (whole : parse? text = some value) : ∃ members, membersOf? text = some members := by
  rw [parse?_of_obj parsed] at whole
  split at whole
  · next embedding =>
    obtain ⟨inner, held, -⟩ := Option.bind_eq_some_iff.mp whole
    exact ⟨_, (membersOf?_of_obj parsed).trans (members?_of_embedding embedding held _)⟩
  · obtain ⟨members, object, -⟩ := Option.map_eq_some_iff.mp whole
    exact ⟨members, object⟩

/-- The tree of an object that is printed. -/
theorem Tree.value?_of_plain (exact : allMembers (!·.isFloat) members = true)
    (ordered : allMembers ascends members = true) {depth : Nat}
    (shallow : memberNesting members ≤ depth) (plain : Json.embeds members = false) :
    value? Json.parse? (depth + 1) (ofJson (.obj members)) =
      (asMembers? members).map Json.ofMembers := by
  rw [ofJson, value?, embeds_ofMembers, plain, members?_ofMembers members exact ordered shallow]
  rfl

/-- Members that are printed stand in the text as they are, in whatever order they are. -/
theorem membersOf?_compact (exact : allMembers (!·.isFloat) members = true)
    (ordered : allMembers ascends members = true) (shallow : memberNesting members < maxDepth) :
    membersOf? (obj members).compact = asMembers? members := by
  have parsed := Tree.parse?_compact (show (obj members).floatFree = true from exact)
  rw [Tree.ofJson] at parsed
  rw [membersOf?_of_obj parsed,
    Tree.members?_ofMembers members exact ordered (Nat.le_sub_one_of_lt shallow)]

theorem lists_compact (exact : allMembers (!·.isFloat) members = true)
    (ordered : allMembers ascends members = true) (shallow : memberNesting members < maxDepth)
    (free : allMembers (!·.embedding) members = true) (plain : embeds members = false) :
    Lists (obj members).compact members where
  object := by
    rw [membersOf?_compact exact ordered shallow, (asMembers?_eq_self_iff members).mpr free]
  plain := plain

end Members

/-! ### Members written one by one -/

/-- The text of a name, which is a string literal, and the text of a value. There may be spaces
around both. -/
structure Inscribed where
  name : String
  value : String
  parts : List Part
  tree : Tree
  named : Tree.Spells name.toList (.str parts)
  spelled : Tree.Spells value.toList tree

namespace Inscribed

def printed (name : String) (value : Json) (exact : value.floatFree = true) : Inscribed where
  name := (Json.str name).compact
  value := value.compact
  parts := name.toList.map Part.written
  tree := .ofJson value
  named := Tree.parse?_eq_some_iff.mp
    (Tree.parse?_compact (show (Json.str name).floatFree = true from rfl))
  spelled := Tree.parse?_eq_some_iff.mp (Tree.parse?_compact exact)

def name? (m : Inscribed) : Option String := Part.text? m.parts

/-- The member that is written, where the object around it counts for the nesting. -/
def member? (m : Inscribed) : Option (String × Json) :=
  match m.name?, m.tree.toJson? (maxDepth - 1) with
  | some name, some value => some (name, value)
  | _, _ => none

theorem member?_eq_some_iff {m : Inscribed} {member : String × Json} :
    m.member? = some member ↔
      m.name? = some member.1 ∧ m.tree.toJson? (maxDepth - 1) = some member.2 := by
  unfold member?
  split <;> simp_all [Prod.ext_iff]

theorem name?_printed (name : String) (value : Json) (exact : value.floatFree = true) :
    (printed name value exact).name? = some name :=
  Part.text?_written name

theorem member?_printed (name : String) {value : Json} (exact : value.floatFree = true)
    (ordered : value.orderly = true) (shallow : value.nesting ≤ maxDepth - 1)
    (free : value.embeddingFree = true) : (printed name value exact).member? = some (name, value) := by
  rw [member?_eq_some_iff]
  refine ⟨name?_printed name value exact, ?_⟩
  rw [← (asValue?_eq_self_iff value).mpr free]
  exact Tree.value?_ofJson value exact ordered shallow

def chars : List Inscribed → List Char
  | [] => []
  | [m] => m.name.toList ++ ':' :: m.value.toList
  | m :: next :: rest =>
    m.name.toList ++ ':' :: (m.value.toList ++ ',' :: chars (next :: rest))

def text (written : List Inscribed) : String :=
  String.ofList ('\x7b' :: (chars written ++ ['\x7d']))

def branches (written : List Inscribed) : List (List Part × Tree) :=
  written.map fun m => (m.parts, m.tree)

theorem spells_chars {written : List Inscribed} (nonempty : written ≠ []) :
    Tree.SpellsMembers (chars written) (branches written) := by
  fun_induction chars written with
  | case1 => exact absurd rfl nonempty
  | case2 m => exact .last m.named m.spelled
  | case3 m next rest ih => exact .more m.named m.spelled (ih (by simp))

theorem parse?_text (written : List Inscribed) :
    Tree.parse? (text written) = some (.obj (branches written)) := by
  rw [Tree.parse?_eq_some_iff, text, String.toList_ofList]
  by_cases nonempty : written = []
  · subst nonempty
    exact .emptyObj (show [].all Tree.isSpace = true from rfl)
  · exact .obj (spells_chars nonempty)

theorem members?_branches {written : List Inscribed} {members : List (String × Json)} :
    Tree.members? parse? (maxDepth - 1) (branches written) = some members ↔
      written.map member? = members.map some := by
  induction written generalizing members with
  | nil => cases members <;> simp [branches, Tree.members?]
  | cons m written ih =>
    rw [branches, List.map_cons, Tree.members?_cons_eq_some_iff]
    constructor
    · rintro ⟨first, others, rfl, named, valued, rest⟩
      rw [List.map_cons, List.map_cons, member?_eq_some_iff.mpr ⟨named, valued⟩, ih.mp rest]
    · intro same
      cases members with
      | nil => cases same
      | cons first others =>
        obtain ⟨head, tail⟩ := List.cons.inj same
        obtain ⟨named, valued⟩ := member?_eq_some_iff.mp head
        exact ⟨first, others, rfl, named, valued, ih.mpr tail⟩

theorem embeds_branches {written : List Inscribed} :
    Tree.embeds (branches written) = false ↔
      ∀ first ∈ written.head?, first.name? ≠ some embeddingName := by
  cases written with
  | nil => simp [branches, Tree.embeds]
  | cons first rest => simp [branches, Tree.embeds, name?]

theorem membersOf?_text (written : List Inscribed) :
    membersOf? (text written) = Tree.members? parse? (maxDepth - 1) (branches written) :=
  membersOf?_of_obj (parse?_text written)

theorem embeds_of_membersOf?_text {written : List Inscribed} {members : List (String × Json)}
    (object : membersOf? (text written) = some members) :
    embeds members = Tree.embeds (branches written) := by
  rw [membersOf?_text] at object
  rw [Tree.embeds_members? object]

/-- An object text lists the members it is written with, if each of them can be read and the
first has another name than that of an embedding. -/
theorem lists_text_iff {written : List Inscribed} {members : List (String × Json)} :
    Lists (text written) members ↔
      written.map member? = members.map some ∧
        ∀ first ∈ written.head?, first.name? ≠ some embeddingName := by
  rw [← members?_branches, ← membersOf?_text, ← embeds_branches]
  constructor
  · rintro ⟨object, plain⟩
    rw [embeds_of_membersOf?_text object] at plain
    exact ⟨object, plain⟩
  · rintro ⟨object, plain⟩
    rw [← embeds_of_membersOf?_text object] at plain
    exact ⟨object, plain⟩

theorem embeddedText?_branches {written : List Inscribed} (several : 2 ≤ written.length) :
    Tree.embeddedText? (branches written) = none := by
  match written, several with
  | first :: next :: rest, _ => simp [branches, Tree.embeddedText?]

/-- No text of two members or more is an embedding. -/
theorem exists_lists_text {written : List Inscribed} (several : 2 ≤ written.length) {value : Json}
    (whole : Json.parse? (text written) = some value) : ∃ members, Lists (text written) members := by
  rw [parse?_of_obj (parse?_text written), embeddedText?_branches several,
    Option.bind_none] at whole
  split at whole
  · cases whole
  · next plain =>
    obtain ⟨members, object, -⟩ := Option.map_eq_some_iff.mp whole
    rw [← embeds_of_membersOf?_text object, Bool.not_eq_true] at plain
    exact ⟨members, object, plain⟩

section Read

variable {written : List Inscribed} {members : List (String × Json)}

theorem exists_members (readable : ∀ m ∈ written, ∃ member, m.member? = some member) :
    ∃ members : List (String × Json), written.map member? = members.map some := by
  induction written with
  | nil => exact ⟨[], rfl⟩
  | cons m written ih =>
    rw [List.forall_mem_cons] at readable
    obtain ⟨⟨member, first⟩, rest⟩ := readable
    obtain ⟨members, others⟩ := ih rest
    exact ⟨member :: members, by rw [List.map_cons, List.map_cons, first, others]⟩

theorem mem_members_iff (read : written.map member? = members.map some) {member : String × Json} :
    member ∈ members ↔ ∃ m ∈ written, m.member? = some member := by
  rw [← List.mem_map, read]
  simp

/-- The last of a name is the one that is written, if only one is. -/
theorem last?_of_only (read : written.map member? = members.map some) {m : Inscribed}
    (among : m ∈ written) {name : String} (named : m.name? = some name)
    (only : ∀ other ∈ written, other.name? = some name → other = m) :
    last? name members = m.tree.toJson? (maxDepth - 1) := by
  have kept : m.member? ∈ members.map some := read ▸ List.mem_map_of_mem among
  obtain ⟨⟨title, value⟩, present, same⟩ := List.mem_map.mp kept
  obtain ⟨titled, valued⟩ := member?_eq_some_iff.mp same.symm
  cases named.symm.trans titled
  rw [valued]
  refine last?_of_agreeing present ?_
  intro member later alike
  obtain ⟨other, written, found⟩ := (mem_members_iff read).mp later
  obtain ⟨called, holds⟩ := member?_eq_some_iff.mp found
  rw [only other written (alike ▸ called), valued, Option.some.injEq] at holds
  exact holds.symm

end Read

end Inscribed

end Countersign.Json
