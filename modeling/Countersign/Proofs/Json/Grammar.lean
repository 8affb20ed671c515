import Countersign.Proofs.Json.Printed
import Countersign.Proofs.Json.Scanners

set_option autoImplicit false

/-!
# What the reader accepts

The grammar of trees, as a relation between texts and trees. A text is read as a tree exactly if
it spells the tree by the grammar. So the reader's fuel never runs out, and the text of an
object is as good as the texts of its names and values.
-/

namespace Countersign.Json.Tree

mutual
/-- The text spells the tree; there may be spaces around it and around every part of it. -/
inductive Spells : List Char → Tree → Prop
  | null : Spells ['n', 'u', 'l', 'l'] .null
  | yes : Spells ['t', 'r', 'u', 'e'] (.bool true)
  | no : Spells ['f', 'a', 'l', 's', 'e'] (.bool false)
  | num {body : List Char} {numeral : Numeral} (scanned : Numeral.scan body = some (numeral, [])) :
    Spells body (.num numeral)
  | str {body : List Char} {parts : List Part} (scanned : Part.scan body = some (parts, [])) :
    Spells ('"' :: body) (.str parts)
  | emptyArr {space : List Char} (blank : space.all isSpace = true) :
    Spells ('[' :: (space ++ [']'])) (.arr [])
  | arr {inner : List Char} {items : List Tree} (spelled : SpellsItems inner items) :
    Spells ('[' :: (inner ++ [']'])) (.arr items)
  | emptyObj {space : List Char} (blank : space.all isSpace = true) :
    Spells ('\x7b' :: (space ++ ['\x7d'])) (.obj [])
  | obj {inner : List Char} {members : List (List Part × Tree)}
    (spelled : SpellsMembers inner members) : Spells ('\x7b' :: (inner ++ ['\x7d'])) (.obj members)
  | before {c : Char} {text : List Char} {tree : Tree} (blank : isSpace c = true)
    (spelled : Spells text tree) : Spells (c :: text) tree
  | behind {c : Char} {text : List Char} {tree : Tree} (blank : isSpace c = true)
    (spelled : Spells text tree) : Spells (text ++ [c]) tree

inductive SpellsItems : List Char → List Tree → Prop
  | last {text : List Char} {item : Tree} (spelled : Spells text item) : SpellsItems text [item]
  | more {text others : List Char} {item : Tree} {items : List Tree} (spelled : Spells text item)
    (rest : SpellsItems others items) : SpellsItems (text ++ ',' :: others) (item :: items)

inductive SpellsMembers : List Char → List (List Part × Tree) → Prop
  | last {name text : List Char} {parts : List Part} {value : Tree} (named : Spells name (.str parts))
    (spelled : Spells text value) : SpellsMembers (name ++ ':' :: text) [(parts, value)]
  | more {name text others : List Char} {parts : List Part} {value : Tree}
    {members : List (List Part × Tree)} (named : Spells name (.str parts))
    (spelled : Spells text value) (rest : SpellsMembers others members) :
    SpellsMembers (name ++ ':' :: (text ++ ',' :: others)) ((parts, value) :: members)
end

theorem Spells.spaced {space text : List Char} {tree : Tree} (blank : space.all isSpace = true)
    (spelled : Spells text tree) : Spells (space ++ text) tree := by
  induction space with
  | nil => exact spelled
  | cons c space ih =>
    rw [List.all_cons, Bool.and_eq_true] at blank
    exact .before blank.1 (ih blank.2)

theorem Spells.trailed {space text : List Char} {tree : Tree} (blank : space.all isSpace = true)
    (spelled : Spells text tree) : Spells (text ++ space) tree := by
  induction space generalizing text with
  | nil => rwa [List.append_nil]
  | cons c space ih =>
    rw [List.all_cons, Bool.and_eq_true] at blank
    rw [List.append_cons]
    exact ih blank.2 (.behind blank.1 spelled)

/-! ### The reader finds what is spelled -/

theorem skip_append_of_blank {space : List Char} (blank : space.all isSpace = true)
    (text : List Char) : skip (space ++ text) = skip text := by
  rw [skip, List.dropWhile_append_of_pos (List.all_eq_true.mp blank)]
  rfl

theorem apart_of_isSpace {c : Char} (blank : isSpace c = true) (rest : List Char) :
    Apart (c :: rest) := by
  simp only [isSpace, Bool.or_eq_true, beq_iff_eq] at blank
  rcases blank with ((rfl | rfl) | rfl) | rfl <;>
    exact apart_cons rfl (by decide) (by decide) (by decide) rest

/-- Nothing is read where an array is closed. -/
theorem read_closing {fuel : Nat} {text tail : List Char} (closing : skip text = ']' :: tail) :
    read fuel text = none := by
  cases fuel with
  | zero => rfl
  | succ fuel =>
    rw [read, closing]
    rfl

/-- A string literal is what the scanner takes off behind the opening quote. -/
theorem scan_of_read {fuel : Nat} {text rest : List Char} {parts : List Part}
    (found : read fuel text = some (.str parts, rest)) :
    ∃ literal, skip text = '"' :: literal ∧ Part.scan literal = some (parts, rest) := by
  cases fuel with
  | zero => cases found
  | succ fuel =>
    rw [read] at found
    split at found
    · cases found
    · cases found
    · cases found
    · next literal opened =>
      split at found
      · next scanned =>
        cases found
        exact ⟨literal, opened, scanned⟩
      · cases found
    · split at found
      · cases found
      · split at found <;> cases found
    · split at found
      · cases found
      · split at found <;> cases found
    · split at found <;> cases found

/-- The reader finds the tree at the front of a text, and leaves the spaces behind it. -/
def Finds (text : List Char) (tree : Tree) : Prop :=
  ∀ (fuel : Nat) (rest : List Char), 2 * text.length + 1 ≤ fuel → Apart rest →
    ∃ space : List Char, space.all isSpace = true ∧
      read fuel (text ++ rest) = some (tree, space ++ rest)

def FindsItems (text : List Char) (items : List Tree) : Prop :=
  ∀ (fuel : Nat) (rest : List Char), 2 * text.length + 2 ≤ fuel →
    readItems fuel (text ++ ']' :: rest) = some (items, rest)

def FindsMembers (text : List Char) (members : List (List Part × Tree)) : Prop :=
  ∀ (fuel : Nat) (rest : List Char), 2 * text.length + 2 ≤ fuel →
    readMembers fuel (text ++ '\x7d' :: rest) = some (members, rest)

theorem finds_num {body : List Char} {numeral : Numeral}
    (scanned : Numeral.scan body = some (numeral, [])) : Finds body (.num numeral) := by
  intro fuel rest enough apart
  obtain ⟨fuel, rfl⟩ : ∃ less, fuel = less + 1 := ⟨fuel - 1, by omega⟩
  obtain ⟨c, tail, rfl, numeric⟩ := Numeral.scan_head scanned
  have behind := Numeral.frontal_scan.behind scanned apart
  refine ⟨[], rfl, ?_⟩
  rw [List.cons_append] at behind ⊢
  rw [read, skip_cons (visible_of_numeric numeric).1]
  -- no other value begins as a number does
  split <;> simp_all

theorem finds_str {body : List Char} {parts : List Part}
    (scanned : Part.scan body = some (parts, [])) : Finds ('"' :: body) (.str parts) := by
  intro fuel rest enough apart
  obtain ⟨fuel, rfl⟩ : ∃ less, fuel = less + 1 := ⟨fuel - 1, by omega⟩
  obtain ⟨body, rfl, -, scans⟩ := Part.scan_eq_some scanned
  refine ⟨[], rfl, ?_⟩
  rw [List.append_nil, List.cons_append, read, skip_cons rfl]
  simp only [scans, List.nil_append]

theorem finds_arr {inner : List Char} {items : List Tree} (found : FindsItems inner items) :
    Finds ('[' :: (inner ++ [']'])) (.arr items) := by
  intro fuel rest enough apart
  obtain ⟨fuel, rfl⟩ : ∃ less, fuel = less + 1 := ⟨fuel - 1, by omega⟩
  simp only [List.length_cons, List.length_append, List.length_nil] at enough
  have inside := found fuel rest (by omega)
  refine ⟨[], rfl, ?_⟩
  rw [List.cons_append, List.append_assoc, List.singleton_append, read, skip_cons rfl]
  simp only
  split
  · next closing =>
    obtain ⟨fuel, rfl⟩ : ∃ less, fuel = less + 1 := ⟨fuel - 1, by omega⟩
    rw [readItems, read_closing closing] at inside
    cases inside
  · simp only [inside, List.nil_append]

theorem finds_obj {inner : List Char} {members : List (List Part × Tree)}
    (found : FindsMembers inner members) : Finds ('\x7b' :: (inner ++ ['\x7d'])) (.obj members) := by
  intro fuel rest enough apart
  obtain ⟨fuel, rfl⟩ : ∃ less, fuel = less + 1 := ⟨fuel - 1, by omega⟩
  simp only [List.length_cons, List.length_append, List.length_nil] at enough
  have inside := found fuel rest (by omega)
  refine ⟨[], rfl, ?_⟩
  rw [List.cons_append, List.append_assoc, List.singleton_append, read, skip_cons rfl]
  simp only
  split
  · next closing =>
    obtain ⟨fuel, rfl⟩ : ∃ less, fuel = less + 1 := ⟨fuel - 1, by omega⟩
    rw [readMembers, closing] at inside
    cases inside
  · simp only [inside, List.nil_append]

theorem findsItems_last {text : List Char} {item : Tree} (found : Finds text item) :
    FindsItems text [item] := by
  intro fuel rest enough
  obtain ⟨fuel, rfl⟩ : ∃ less, fuel = less + 1 := ⟨fuel - 1, by omega⟩
  obtain ⟨space, blank, first⟩ := found fuel (']' :: rest) (by omega)
    (apart_cons rfl (by decide) (by decide) (by decide) rest)
  rw [readItems, first]
  simp only [skip_append_of_blank blank, skip_cons (c := ']') rfl]

theorem findsItems_more {text others : List Char} {item : Tree} {items : List Tree}
    (found : Finds text item) (rest : FindsItems others items) :
    FindsItems (text ++ ',' :: others) (item :: items) := by
  intro fuel behind enough
  obtain ⟨fuel, rfl⟩ : ∃ less, fuel = less + 1 := ⟨fuel - 1, by omega⟩
  simp only [List.length_cons, List.length_append] at enough
  obtain ⟨space, blank, first⟩ := found fuel (',' :: (others ++ ']' :: behind)) (by omega)
    (apart_cons rfl (by decide) (by decide) (by decide) _)
  rw [List.append_assoc, List.cons_append, readItems, first]
  simp only [skip_append_of_blank blank, skip_cons (c := ',') rfl, rest fuel behind (by omega)]

/-- The name of a member is found as a string literal is. -/
theorem Finds.name {text : List Char} {parts : List Part} (found : Finds text (.str parts))
    {rest : List Char} (apart : Apart rest) :
    ∃ literal space, skip (text ++ rest) = '"' :: literal ∧ space.all isSpace = true ∧
      Part.scan literal = some (parts, space ++ rest) := by
  obtain ⟨space, blank, read⟩ := found _ rest (Nat.le_refl _) apart
  obtain ⟨literal, opened, scanned⟩ := scan_of_read read
  exact ⟨literal, space, opened, blank, scanned⟩

theorem findsMembers_last {name text : List Char} {parts : List Part} {value : Tree}
    (named : Finds name (.str parts)) (found : Finds text value) :
    FindsMembers (name ++ ':' :: text) [(parts, value)] := by
  intro fuel rest enough
  obtain ⟨fuel, rfl⟩ : ∃ less, fuel = less + 1 := ⟨fuel - 1, by omega⟩
  simp only [List.length_cons, List.length_append] at enough
  have colon : Apart (':' :: (text ++ '\x7d' :: rest)) :=
    apart_cons rfl (by decide) (by decide) (by decide) _
  obtain ⟨literal, space, opened, blank, scanned⟩ := named.name colon
  obtain ⟨space', blank', first⟩ := found fuel ('\x7d' :: rest) (by omega)
    (apart_cons rfl (by decide) (by decide) (by decide) rest)
  rw [List.append_assoc, List.cons_append, readMembers, opened]
  simp only [scanned, skip_append_of_blank blank, skip_cons (c := ':') rfl, first,
    skip_append_of_blank blank', skip_cons (c := '\x7d') rfl]

theorem findsMembers_more {name text others : List Char} {parts : List Part} {value : Tree}
    {members : List (List Part × Tree)} (named : Finds name (.str parts)) (found : Finds text value)
    (rest : FindsMembers others members) :
    FindsMembers (name ++ ':' :: (text ++ ',' :: others)) ((parts, value) :: members) := by
  intro fuel behind enough
  obtain ⟨fuel, rfl⟩ : ∃ less, fuel = less + 1 := ⟨fuel - 1, by omega⟩
  simp only [List.length_cons, List.length_append] at enough
  have colon : Apart (':' :: (text ++ ',' :: (others ++ '\x7d' :: behind))) :=
    apart_cons rfl (by decide) (by decide) (by decide) _
  obtain ⟨literal, space, opened, blank, scanned⟩ := named.name colon
  obtain ⟨space', blank', first⟩ := found fuel (',' :: (others ++ '\x7d' :: behind)) (by omega)
    (apart_cons rfl (by decide) (by decide) (by decide) _)
  rw [List.append_assoc, List.cons_append, List.append_assoc, List.cons_append, readMembers, opened]
  simp only [scanned, skip_append_of_blank blank, skip_cons (c := ':') rfl, first,
    skip_append_of_blank blank', skip_cons (c := ',') rfl, rest fuel behind (by omega)]

theorem finds_word {word : List Char} {tree : Tree}
    (found : ∀ fuel rest, read (fuel + 1) (word ++ rest) = some (tree, rest)) : Finds word tree := by
  intro fuel rest enough _
  obtain ⟨fuel, rfl⟩ : ∃ less, fuel = less + 1 := ⟨fuel - 1, by omega⟩
  exact ⟨[], rfl, found fuel rest⟩

theorem finds_emptyArr {space : List Char} (blank : space.all isSpace = true) :
    Finds ('[' :: (space ++ [']'])) (.arr []) := by
  apply finds_word
  intro fuel rest
  rw [List.cons_append, List.append_assoc, List.singleton_append, read, skip_cons rfl]
  simp only [skip_append_of_blank blank, skip_cons (c := ']') rfl]

theorem finds_emptyObj {space : List Char} (blank : space.all isSpace = true) :
    Finds ('\x7b' :: (space ++ ['\x7d'])) (.obj []) := by
  apply finds_word
  intro fuel rest
  rw [List.cons_append, List.append_assoc, List.singleton_append, read, skip_cons rfl]
  simp only [skip_append_of_blank blank, skip_cons (c := '\x7d') rfl]

theorem finds_before {c : Char} {text : List Char} {tree : Tree} (blank : isSpace c = true)
    (found : Finds text tree) : Finds (c :: text) tree := by
  intro fuel rest enough apart
  obtain ⟨fuel, rfl⟩ : ∃ less, fuel = less + 1 := ⟨fuel - 1, by omega⟩
  rw [List.length_cons] at enough
  obtain ⟨space, blank', inside⟩ := found (fuel + 1) rest (by omega) apart
  have skipped : skip ([c] ++ (text ++ rest)) = skip (text ++ rest) :=
    skip_append_of_blank (by simpa using blank) (text ++ rest)
  refine ⟨space, blank', ?_⟩
  rw [← inside, read, read, ← skipped]
  rfl

theorem finds_behind {c : Char} {text : List Char} {tree : Tree} (blank : isSpace c = true)
    (found : Finds text tree) : Finds (text ++ [c]) tree := by
  intro fuel rest enough _
  rw [List.length_append] at enough
  obtain ⟨space, blank', inside⟩ := found fuel (c :: rest) (by omega) (apart_of_isSpace blank rest)
  refine ⟨space ++ [c], by simp [blank, blank'], ?_⟩
  rw [List.append_assoc, List.append_assoc]
  exact inside

mutual
theorem finds_of_spells {text : List Char} {tree : Tree} : Spells text tree → Finds text tree
  | .null => finds_word fun _ _ => rfl
  | .yes => finds_word fun _ _ => rfl
  | .no => finds_word fun _ _ => rfl
  | .num scanned => finds_num scanned
  | .str scanned => finds_str scanned
  | .emptyArr blank => finds_emptyArr blank
  | .arr spelled => finds_arr (findsItems_of_spells spelled)
  | .emptyObj blank => finds_emptyObj blank
  | .obj spelled => finds_obj (findsMembers_of_spells spelled)
  | .before blank spelled => finds_before blank (finds_of_spells spelled)
  | .behind blank spelled => finds_behind blank (finds_of_spells spelled)

theorem findsItems_of_spells {text : List Char} {items : List Tree} :
    SpellsItems text items → FindsItems text items
  | .last spelled => findsItems_last (finds_of_spells spelled)
  | .more spelled rest => findsItems_more (finds_of_spells spelled) (findsItems_of_spells rest)

theorem findsMembers_of_spells {text : List Char} {members : List (List Part × Tree)} :
    SpellsMembers text members → FindsMembers text members
  | .last named spelled => findsMembers_last (finds_of_spells named) (finds_of_spells spelled)
  | .more named spelled rest =>
    findsMembers_more (finds_of_spells named) (finds_of_spells spelled)
      (findsMembers_of_spells rest)
end

/-! ### What the reader finds is spelled -/

theorem exists_skip (text : List Char) :
    ∃ space : List Char, space.all isSpace = true ∧ text = space ++ skip text :=
  ⟨text.takeWhile isSpace, List.all_takeWhile, List.takeWhile_append_dropWhile.symm⟩

/-- A closing or dividing character behind spaces. -/
theorem exists_space {text rest : List Char} {c : Char} (seen : skip text = c :: rest) :
    ∃ space : List Char, space.all isSpace = true ∧ text = space ++ c :: rest := by
  obtain ⟨space, blank, spaced⟩ := exists_skip text
  exact ⟨space, blank, seen ▸ spaced⟩

mutual
theorem spells_of_read {fuel : Nat} {text rest : List Char} {tree : Tree}
    (found : read fuel text = some (tree, rest)) : ∃ body, text = body ++ rest ∧ Spells body tree := by
  match fuel with
  | 0 => cases found
  | fuel + 1 =>
    obtain ⟨space, blank, spaced⟩ := exists_skip text
    suffices inner : ∃ body, skip text = body ++ rest ∧ Spells body tree by
      obtain ⟨body, behind, spelled⟩ := inner
      refine ⟨space ++ body, ?_, spelled.spaced blank⟩
      rw [List.append_assoc, ← behind, ← spaced]
    clear spaced
    rw [read] at found
    split at found
    · next seen =>
      cases found
      exact ⟨_, seen, .null⟩
    · next seen =>
      cases found
      exact ⟨_, seen, .yes⟩
    · next seen =>
      cases found
      exact ⟨_, seen, .no⟩
    · next literal seen =>
      split at found
      · next scanned =>
        cases found
        obtain ⟨body, rfl, -, scans⟩ := Part.scan_eq_some scanned
        have alone := scans []
        rw [List.append_nil] at alone
        exact ⟨'"' :: body, seen, .str alone⟩
      · cases found
    · next more seen =>
      split at found
      · next closing =>
        cases found
        obtain ⟨space, blank, rfl⟩ := exists_space closing
        exact ⟨'[' :: (space ++ [']']), by rw [seen]; simp, .emptyArr blank⟩
      · split at found
        · next inside =>
          cases found
          obtain ⟨inner, rfl, spelled⟩ := spellsItems_of_read inside
          exact ⟨'[' :: (inner ++ [']']), by rw [seen]; simp, .arr spelled⟩
        · cases found
    · next more seen =>
      split at found
      · next closing =>
        cases found
        obtain ⟨space, blank, rfl⟩ := exists_space closing
        exact ⟨'\x7b' :: (space ++ ['\x7d']), by rw [seen]; simp, .emptyObj blank⟩
      · split at found
        · next inside =>
          cases found
          obtain ⟨inner, rfl, spelled⟩ := spellsMembers_of_read inside
          exact ⟨'\x7b' :: (inner ++ ['\x7d']), by rw [seen]; simp, .obj spelled⟩
        · cases found
    · split at found
      · next scanned =>
        cases found
        obtain ⟨body, same, alone⟩ := Numeral.frontal_scan.taken scanned
        exact ⟨body, same, .num alone⟩
      · cases found

theorem spellsItems_of_read {fuel : Nat} {text rest : List Char} {items : List Tree}
    (found : readItems fuel text = some (items, rest)) :
    ∃ inner, text = inner ++ ']' :: rest ∧ SpellsItems inner items := by
  match fuel with
  | 0 => cases found
  | fuel + 1 =>
    rw [readItems] at found
    split at found
    · cases found
    · next item behind first =>
      obtain ⟨body, rfl, spelled⟩ := spells_of_read first
      split at found
      · next closing =>
        cases found
        obtain ⟨space, blank, rfl⟩ := exists_space closing
        exact ⟨body ++ space, by simp, .last (spelled.trailed blank)⟩
      · next comma =>
        obtain ⟨space, blank, rfl⟩ := exists_space comma
        split at found
        · next others =>
          cases found
          obtain ⟨inner, rfl, rest⟩ := spellsItems_of_read others
          exact ⟨body ++ space ++ ',' :: inner, by simp, .more (spelled.trailed blank) rest⟩
        · cases found
      · cases found

theorem spellsMembers_of_read {fuel : Nat} {text rest : List Char}
    {members : List (List Part × Tree)} (found : readMembers fuel text = some (members, rest)) :
    ∃ inner, text = inner ++ '\x7d' :: rest ∧ SpellsMembers inner members := by
  match fuel with
  | 0 => cases found
  | fuel + 1 =>
    rw [readMembers] at found
    split at found
    · next opened =>
      split at found
      · cases found
      · next scanned =>
        obtain ⟨space, blank, rfl⟩ := exists_space opened
        obtain ⟨literal, rfl, -, scans⟩ := Part.scan_eq_some scanned
        have alone := scans []
        rw [List.append_nil] at alone
        have named := (Spells.str alone).spaced blank
        split at found
        · next colon =>
          obtain ⟨space', blank', rfl⟩ := exists_space colon
          have named := named.trailed blank'
          split at found
          · cases found
          · next first =>
            obtain ⟨body, rfl, spelled⟩ := spells_of_read first
            split at found
            · next closing =>
              cases found
              obtain ⟨last, blank'', rfl⟩ := exists_space closing
              exact ⟨_, by simp, .last named (spelled.trailed blank'')⟩
            · next comma =>
              obtain ⟨last, blank'', rfl⟩ := exists_space comma
              split at found
              · next others =>
                cases found
                obtain ⟨inner, rfl, rest⟩ := spellsMembers_of_read others
                exact ⟨_, by simp, .more named (spelled.trailed blank'') rest⟩
              · cases found
            · cases found
        · cases found
    · cases found
end

/-- A whole text is read as a tree exactly if it spells the tree. -/
theorem parse?_eq_some_iff {text : String} {tree : Tree} :
    parse? text = some tree ↔ Spells text.toList tree := by
  constructor
  · intro parsed
    simp only [parse?] at parsed
    split at parsed
    · next tree' rest found =>
      split at parsed
      · next finished =>
        cases parsed
        obtain ⟨body, same, spelled⟩ := spells_of_read found
        obtain ⟨space, blank, spaced⟩ := exists_skip rest
        rw [List.isEmpty_iff.mp finished, List.append_nil] at spaced
        rw [same, spaced]
        exact spelled.trailed blank
      · cases parsed
    · cases parsed
  · intro spelled
    obtain ⟨space, blank, found⟩ := finds_of_spells spelled _ [] (Nat.le_refl _) apart_nil
    rw [List.append_nil] at found
    have finished : skip (space ++ []) = [] := skip_append_of_blank blank []
    simp only [parse?, found, finished, List.isEmpty_nil, if_true]

end Countersign.Json.Tree
