import Countersign.Proofs.Json.Grammar
import Countersign.Proofs.Json.Reread

set_option autoImplicit false

/-!
# Texts in texts

A text that is embedded in another is shorter than the text around it, so it is read as it
would be on its own, however deep it is embedded. What was read has no object with the embedding
name alone in it, so looking through it once more changes nothing, though it may be refused.
-/

namespace Countersign.Json

namespace Part

theorem length_chars? {parts : List Part} {chars : List Char} (made : chars? parts = some chars) :
    chars.length ≤ parts.length := by
  have longer : ∀ {c : Char} {tail : Option (List Char)} {chars : List Char} {size : Nat},
      tail.map (c :: ·) = some chars → (∀ rest, tail = some rest → rest.length ≤ size) →
        chars.length ≤ size + 1 := by
    intro c tail chars size made bounded
    obtain ⟨rest, shorter, rfl⟩ := Option.map_eq_some_iff.mp made
    exact Nat.succ_le_succ (bounded rest shorter)
  fun_induction chars? parts generalizing chars with
  | case1 =>
    cases made
    exact Nat.le_refl _
  | case2 c rest ih => exact longer made fun _ => ih
  | case3 high low rest _ _ ih => exact Nat.le_succ_of_le (longer made fun _ => ih)
  | case4 => cases made
  | case5 => cases made
  | case6 high low rest _ _ ih => exact longer made fun _ => ih
  | case7 => cases made
  | case8 u rest _ _ ih => exact longer made fun _ => ih

theorem length_text? {parts : List Part} {text : String} (made : text? parts = some text) :
    text.length ≤ parts.length := by
  obtain ⟨chars, spelled, rfl⟩ := Option.map_eq_some_iff.mp made
  rw [String.length_ofList]
  exact length_chars? spelled

end Part

namespace Tree

mutual
def longest : Tree → Nat
  | .str parts => parts.length
  | .arr items => longestItem items
  | .obj members => longestMember members
  | _ => 0

def longestItem : List Tree → Nat
  | [] => 0
  | item :: rest => max item.longest (longestItem rest)

def longestMember : List (List Part × Tree) → Nat
  | [] => 0
  | (_, value) :: rest => max value.longest (longestMember rest)
end

mutual
/-- Every literal is shorter than the text it stands in. -/
theorem Spells.longest_lt {text : List Char} {tree : Tree} :
    Spells text tree → tree.longest < text.length
  | .null => by decide
  | .yes => by decide
  | .no => by decide
  | .num scanned => by
    obtain ⟨c, tail, rfl, -⟩ := Numeral.scan_head scanned
    exact Nat.succ_pos _
  | .str scanned => by
    obtain ⟨body, rfl, shorter, -⟩ := Part.scan_eq_some scanned
    rw [longest, List.length_cons, List.length_append]
    omega
  | .emptyArr _ => Nat.succ_pos _
  | .arr spelled => by
    have := spelled.longest_lt
    simp only [longest, List.length_cons, List.length_append]
    omega
  | .emptyObj _ => Nat.succ_pos _
  | .obj spelled => by
    have := spelled.longest_lt
    simp only [longest, List.length_cons, List.length_append]
    omega
  | .before _ spelled => by
    have := spelled.longest_lt
    rw [List.length_cons]
    omega
  | .behind _ spelled => by
    have := spelled.longest_lt
    rw [List.length_append]
    omega

theorem SpellsItems.longest_lt {text : List Char} {items : List Tree} :
    SpellsItems text items → longestItem items < text.length
  | .last spelled => by
    have := spelled.longest_lt
    simp only [longestItem]
    omega
  | .more spelled rest => by
    have := spelled.longest_lt
    have := rest.longest_lt
    simp only [longestItem, List.length_append, List.length_cons]
    omega

theorem SpellsMembers.longest_lt {text : List Char} {members : List (List Part × Tree)} :
    SpellsMembers text members → longestMember members < text.length
  | .last _ spelled => by
    have := spelled.longest_lt
    simp only [longestMember, List.length_append, List.length_cons]
    omega
  | .more _ spelled rest => by
    have := spelled.longest_lt
    have := rest.longest_lt
    simp only [longestMember, List.length_append, List.length_cons]
    omega
end

theorem length_embeddedText? {members : List (List Part × Tree)} {text : String}
    (held : embeddedText? members = some text) : text.length ≤ longestMember members := by
  unfold embeddedText? at held
  split at held
  · have := Part.length_text? held
    simp only [longestMember, longest]
    omega
  · cases held

section Congruence

variable {f g : String → Option Json}

mutual
/-- How embedded texts are read matters only for texts as long as a literal of the tree. -/
theorem value?_congr (tree : Tree) (agree : ∀ text, text.length ≤ tree.longest → f text = g text)
    (depth : Nat) : value? f depth tree = value? g depth tree := by
  match tree, depth with
  | .null, _ => simp only [value?]
  | .bool b, _ => simp only [value?]
  | .num numeral, _ => simp only [value?]
  | .str parts, _ => simp only [value?]
  | .arr items, 0 => simp only [value?]
  | .obj members, 0 => simp only [value?]
  | .arr items, depth + 1 =>
    rw [value?, value?, values?_congr items (by simpa only [longest] using agree) depth]
  | .obj members, depth + 1 =>
    simp only [longest] at agree
    rw [value?, value?, members?_congr members agree depth]
    congr 1
    refine Option.bind_congr fun text held => ?_
    exact agree text (length_embeddedText? held)

theorem values?_congr (items : List Tree)
    (agree : ∀ text, text.length ≤ longestItem items → f text = g text) (depth : Nat) :
    values? f depth items = values? g depth items := by
  match items with
  | [] => simp only [values?]
  | item :: rest =>
    rw [longestItem] at agree
    have first := value?_congr item
      (fun text short => agree text (Nat.le_trans short (Nat.le_max_left _ _))) depth
    have others := values?_congr rest
      (fun text short => agree text (Nat.le_trans short (Nat.le_max_right _ _))) depth
    rw [values?, values?, first, others]

theorem members?_congr (members : List (List Part × Tree))
    (agree : ∀ text, text.length ≤ longestMember members → f text = g text) (depth : Nat) :
    members? f depth members = members? g depth members := by
  match members with
  | [] => simp only [members?]
  | (name, value) :: rest =>
    rw [longestMember] at agree
    have first := value?_congr value
      (fun text short => agree text (Nat.le_trans short (Nat.le_max_left _ _))) depth
    have others := members?_congr rest
      (fun text short => agree text (Nat.le_trans short (Nat.le_max_right _ _))) depth
    rw [members?, members?, first, others]
end

end Congruence

end Tree

/-- An embedded text is read as on its own, if there is fuel for every character around it. -/
theorem parseWithin_eq {fuel : Nat} {text : String} (enough : text.length < fuel) :
    parseWithin fuel text = (Tree.parse? text).bind (Tree.toJson? maxDepth) := by
  induction fuel using Nat.strongRecOn generalizing text with
  | _ fuel ih =>
    obtain ⟨fuel, rfl⟩ : ∃ less, fuel = less + 1 := ⟨fuel - 1, by omega⟩
    rw [parseWithin]
    refine Option.bind_congr fun tree parsed => ?_
    refine Tree.value?_congr tree ?_ maxDepth
    intro inner short
    have shorter := (Tree.parse?_eq_some_iff.mp parsed).longest_lt
    rw [String.length_toList] at shorter
    rw [parse?, ih fuel (by omega) (by omega), ih (inner.length + 1) (by omega) (by omega)]

theorem parse?_eq (text : String) :
    parse? text = (Tree.parse? text).bind (Tree.toJson? maxDepth) :=
  parseWithin_eq (Nat.lt_succ_self _)

/-- A printed value is read as the value looked through. -/
theorem parse?_compact {value : Json} (exact : value.floatFree = true)
    (ordered : value.orderly = true) (shallow : value.nesting ≤ maxDepth) :
    parse? value.compact = asValue? value := by
  rw [parse?_eq, Tree.parse?_compact exact, Option.bind_some, Tree.toJson?,
    Tree.value?_ofJson value exact ordered shallow]

/-! ### Looking through what was read -/

theorem asValue?_embedding (inner : String) :
    asValue? (.obj [(embeddingName, .str inner)]) = parse? inner := by
  simp only [asValue?, embeds, beq_self_eq_true, if_true, embedded?]

mutual
/-- What has been looked through has no such object in it. -/
theorem asValue?_loneFree {value looked : Json} (read : asValue? value = some looked) :
    looked.loneFree = true := by
  match value with
  | .null => exact Option.some.inj read ▸ rfl
  | .bool b => exact Option.some.inj read ▸ rfl
  | .int n => exact Option.some.inj read ▸ rfl
  | .float x => exact Option.some.inj read ▸ rfl
  | .str text => exact Option.some.inj read ▸ rfl
  | .arr items =>
    rw [asValue?] at read
    obtain ⟨values, succeeded, rfl⟩ := Option.map_eq_some_iff.mp read
    exact loneFree_arr_iff.mpr (asValues?_loneFree succeeded)
  | .obj members =>
    rw [asValue?] at read
    split at read
    · unfold embedded? at read
      split at read
      · exact parseWithin_loneFree read
      · cases read
    · next plain =>
      obtain ⟨members', succeeded, rfl⟩ := Option.map_eq_some_iff.mp read
      refine loneFree_obj_iff.mpr ⟨?_, asMembers?_loneFree succeeded⟩
      rw [Bool.eq_false_iff]
      intro alone
      obtain ⟨inner, same⟩ := lone_iff.mp alone
      cases same
      -- the object had this one name before, and so was an embedding
      obtain ⟨⟨name, value⟩, rfl, rfl⟩ := List.map_eq_singleton_iff.mp (names_asMembers? succeeded).symm
      exact plain (beq_self_eq_true _)

theorem asValues?_loneFree {items values : List Json} (read : asValues? items = some values) :
    ∀ value ∈ values, value.loneFree = true := by
  match items with
  | [] =>
    rw [asValues?, Option.some.injEq] at read
    subst read
    nofun
  | item :: rest =>
    rw [asValues?] at read
    split at read
    · next first others =>
      cases read
      exact List.forall_mem_cons.mpr ⟨asValue?_loneFree first, asValues?_loneFree others⟩
    · cases read

theorem asMembers?_loneFree {members looked : List (String × Json)}
    (read : asMembers? members = some looked) : ∀ member ∈ looked, member.2.loneFree = true := by
  match members with
  | [] =>
    rw [asMembers?, Option.some.injEq] at read
    subst read
    nofun
  | (name, value) :: rest =>
    rw [asMembers?] at read
    split at read
    · next first others =>
      cases read
      exact List.forall_mem_cons.mpr ⟨asValue?_loneFree first, asMembers?_loneFree others⟩
    · cases read
end

mutual
/-- Where no such object is, looking through changes nothing, though it may refuse. -/
theorem eq_of_asValue? {value looked : Json} (free : value.loneFree = true)
    (read : asValue? value = some looked) : looked = value := by
  match value with
  | .null => exact (Option.some.inj read).symm
  | .bool b => exact (Option.some.inj read).symm
  | .int n => exact (Option.some.inj read).symm
  | .float x => exact (Option.some.inj read).symm
  | .str text => exact (Option.some.inj read).symm
  | .arr items =>
    rw [asValue?] at read
    obtain ⟨values, succeeded, rfl⟩ := Option.map_eq_some_iff.mp read
    rw [eq_of_asValues? (loneFree_arr_iff.mp free) succeeded]
  | .obj members =>
    obtain ⟨several, inner⟩ := loneFree_obj_iff.mp free
    rw [asValue?] at read
    split at read
    · next embedding =>
      unfold embedded? at read
      split at read
      · rw [embeds] at embedding
        rw [lone, embedding] at several
        cases several
      · cases read
    · obtain ⟨members', succeeded, rfl⟩ := Option.map_eq_some_iff.mp read
      rw [eq_of_asMembers? inner succeeded]

theorem eq_of_asValues? {items values : List Json} (free : ∀ item ∈ items, item.loneFree = true)
    (read : asValues? items = some values) : values = items := by
  match items with
  | [] => exact (Option.some.inj read).symm
  | item :: rest =>
    rw [List.forall_mem_cons] at free
    rw [asValues?] at read
    split at read
    · next first others =>
      cases read
      rw [eq_of_asValue? free.1 first, eq_of_asValues? free.2 others]
    · cases read

theorem eq_of_asMembers? {members looked : List (String × Json)}
    (free : ∀ member ∈ members, member.2.loneFree = true)
    (read : asMembers? members = some looked) : looked = members := by
  match members with
  | [] => exact (Option.some.inj read).symm
  | (name, value) :: rest =>
    rw [List.forall_mem_cons] at free
    rw [asMembers?] at read
    split at read
    · next first others =>
      cases read
      rw [eq_of_asValue? free.1 first, eq_of_asMembers? free.2 others]
    · cases read
end

end Countersign.Json
