import Countersign.Json.Printer
import Countersign.Json.Tree
import Countersign.Proofs.Json.Literals

set_option autoImplicit false

/-!
# Reading what was written

The compact text of a value without floats is read as one tree, whatever stands behind it,
and the tree has the shape of the value. The reader needs no more fuel than the text has
characters.
-/

namespace Countersign.Json

/-! ### Tests of a value and all that is in it -/

mutual
def all (test : Json → Bool) : Json → Bool
  | .arr items => test (.arr items) && allItems test items
  | .obj members => test (.obj members) && allMembers test members
  | value => test value

def allItems (test : Json → Bool) : List Json → Bool
  | [] => true
  | item :: rest => item.all test && allItems test rest

def allMembers (test : Json → Bool) : List (String × Json) → Bool
  | [] => true
  | (_, value) :: rest => value.all test && allMembers test rest
end

theorem allItems_iff {test : Json → Bool} {items : List Json} :
    allItems test items = true ↔ ∀ item ∈ items, item.all test = true := by
  induction items with
  | nil => simp [allItems]
  | cons item rest ih => simp [allItems, ih]

theorem allMembers_iff {test : Json → Bool} {members : List (String × Json)} :
    allMembers test members = true ↔ ∀ member ∈ members, member.2.all test = true := by
  induction members with
  | nil => simp [allMembers]
  | cons member rest ih => rw [allMembers, Bool.and_eq_true, ih, List.forall_mem_cons]

def isFloat : Json → Bool
  | .float _ => true
  | _ => false

def floatFree (value : Json) : Bool := value.all (!·.isFloat)

/-! ### The tree of a text -/

/-- The numeral at the front of a text, an empty one if there is none. -/
def Numeral.leading (text : List Char) : Numeral :=
  match scan text with
  | some (numeral, _) => numeral
  | none => ⟨false, [], [], none⟩

namespace Tree

mutual
def ofJson : Json → Tree
  | .null => .null
  | .bool b => .bool b
  | .int n => .num (.ofInteger n)
  | .float x => .num (.leading (floatText x))
  | .str text => .str (text.toList.map Part.written)
  | .arr items => .arr (ofItems items)
  | .obj members => .obj (ofMembers members)

def ofItems : List Json → List Tree
  | [] => []
  | item :: rest => ofJson item :: ofItems rest

def ofMembers : List (String × Json) → List (List Part × Tree)
  | [] => []
  | (name, value) :: rest => (name.toList.map Part.written, ofJson value) :: ofMembers rest
end

theorem skip_cons {c : Char} (visible : isSpace c = false) (rest : List Char) :
    skip (c :: rest) = c :: rest := by
  simp [skip, visible]

theorem visible_of_numeric {c : Char} (numeric : c = '-' ∨ c.isDigit = true) :
    isSpace c = false ∧ c ≠ ']' := by
  rcases numeric with rfl | digit
  · decide
  · constructor
    · rw [Bool.eq_false_iff]
      intro space
      simp only [isSpace, Bool.or_eq_true, beq_iff_eq] at space
      rcases space with ((rfl | rfl) | rfl) | rfl <;> cases digit
    · rintro rfl
      cases digit

/-- A value does not begin with a space, nor as an array ends. -/
theorem chars_head {value : Json} (exact : value.floatFree = true) :
    ∃ c rest, value.chars = c :: rest ∧ isSpace c = false ∧ c ≠ ']' := by
  cases value with
  | null => exact ⟨_, _, rfl, rfl, by decide⟩
  | bool b => cases b <;> exact ⟨_, _, rfl, rfl, by decide⟩
  | int n =>
    obtain ⟨c, rest, written, numeric⟩ := Numeral.integerText_head n
    exact ⟨c, rest, written, visible_of_numeric numeric⟩
  | float x => simp [floatFree, all, isFloat] at exact
  | str text => exact ⟨_, _, rfl, rfl, by decide⟩
  | arr items => exact ⟨_, _, rfl, rfl, by decide⟩
  | obj members => exact ⟨_, _, rfl, rfl, by decide⟩

theorem read_integer (fuel : Nat) (n : Integer) {rest : List Char} (apart : Apart rest) :
    read (fuel + 1) (integerText n ++ rest) = some (.num (.ofInteger n), rest) := by
  have scanned := Numeral.scan_integerText n apart
  obtain ⟨c, more, written, numeric⟩ := Numeral.integerText_head n
  rw [written, List.cons_append] at scanned ⊢
  rw [read, skip_cons (visible_of_numeric numeric).1]
  -- no other value begins as a number does
  split <;> simp_all

theorem scan_quote (text : String) (rest : List Char) :
    ∃ behind, quote text ++ rest = '"' :: behind ∧
      Part.scan behind = some (text.toList.map Part.written, rest) := by
  refine ⟨text.toList.flatMap escape ++ '"' :: rest, ?_, Part.scan_flatMap_escape _ rest⟩
  simp [quote]

theorem read_quote (fuel : Nat) (text : String) (rest : List Char) :
    read (fuel + 1) (quote text ++ rest) = some (.str (text.toList.map Part.written), rest) := by
  obtain ⟨behind, opened, scanned⟩ := scan_quote text rest
  rw [opened, read, skip_cons rfl]
  simp only [scanned]

section Brackets

variable {fuel : Nat} {text more rest : List Char} {item : Tree} {items : List Tree}
  {members : List (List Part × Tree)}

theorem read_arr {c : Char} (visible : isSpace c = false) (opens : c ≠ ']')
    (inner : readItems fuel (c :: text) = some (items, rest)) :
    read (fuel + 1) ('[' :: c :: text) = some (.arr items, rest) := by
  rw [read, skip_cons rfl]
  simp only [skip_cons visible]
  split
  · simp_all
  · simp only [inner]

theorem read_obj (inner : readMembers fuel ('"' :: text) = some (members, rest)) :
    read (fuel + 1) ('\x7b' :: '"' :: text) = some (.obj members, rest) := by
  rw [read, skip_cons rfl]
  simp only [skip_cons (c := '"') rfl, inner]
  rfl

theorem readItems_last (first : read fuel text = some (item, ']' :: rest)) :
    readItems (fuel + 1) text = some ([item], rest) := by
  rw [readItems, first]
  simp only [skip_cons (c := ']') rfl]

theorem readItems_more (first : read fuel text = some (item, ',' :: more))
    (others : readItems fuel more = some (items, rest)) :
    readItems (fuel + 1) text = some (item :: items, rest) := by
  rw [readItems, first]
  simp only [skip_cons (c := ',') rfl, others]

theorem readMembers_last (name : String) (first : read fuel text = some (item, '\x7d' :: rest)) :
    readMembers (fuel + 1) (quote name ++ ':' :: text) =
      some ([(name.toList.map Part.written, item)], rest) := by
  obtain ⟨behind, opened, scanned⟩ := scan_quote name (':' :: text)
  rw [opened, readMembers, skip_cons rfl]
  simp only [scanned, skip_cons (c := ':') rfl, first, skip_cons (c := '\x7d') rfl]

theorem readMembers_more (name : String) (first : read fuel text = some (item, ',' :: more))
    (others : readMembers fuel more = some (members, rest)) :
    readMembers (fuel + 1) (quote name ++ ':' :: text) =
      some ((name.toList.map Part.written, item) :: members, rest) := by
  obtain ⟨behind, opened, scanned⟩ := scan_quote name (':' :: text)
  rw [opened, readMembers, skip_cons rfl]
  simp only [scanned, skip_cons (c := ':') rfl, first, skip_cons (c := ',') rfl, others]

end Brackets

theorem memberChars_head {members : List (String × Json)} (nonempty : members ≠ []) :
    ∃ rest, memberChars members = '"' :: rest := by
  match members with
  | [] => contradiction
  | [(name, value)] => exact ⟨_, rfl⟩
  | (name, value) :: next :: rest => exact ⟨_, rfl⟩

theorem itemChars_head {items : List Json} (nonempty : items ≠ [])
    (exact : allItems (!·.isFloat) items = true) :
    ∃ c rest, itemChars items = c :: rest ∧ isSpace c = false ∧ c ≠ ']' := by
  match items with
  | [] => contradiction
  | [item] =>
    simp only [allItems, Bool.and_true] at exact
    exact chars_head exact
  | item :: next :: rest =>
    simp only [allItems, Bool.and_eq_true] at exact
    obtain ⟨c, more, written, head⟩ := chars_head exact.1
    exact ⟨c, _, by rw [itemChars, written, List.cons_append]; simp, head⟩

mutual
/-- A value is read from its text, with as much fuel as the text is long. -/
theorem read_chars (value : Json) (exact : value.floatFree = true) {fuel : Nat} {rest : List Char}
    (enough : value.chars.length ≤ fuel) (apart : Apart rest) :
    read fuel (value.chars ++ rest) = some (ofJson value, rest) := by
  obtain ⟨c, more, written, -⟩ := chars_head exact
  obtain ⟨fuel, rfl⟩ : ∃ less, fuel = less + 1 := by
    rw [written, List.length_cons] at enough
    exact ⟨fuel - 1, by omega⟩
  match value with
  | .null => rfl
  | .bool true => rfl
  | .bool false => rfl
  | .int n => exact read_integer fuel n apart
  | .float x => simp [floatFree, all, isFloat] at exact
  | .str text => exact read_quote fuel text rest
  | .arr [] => rfl
  | .arr (item :: items) =>
    simp only [floatFree, all, Bool.and_eq_true] at exact
    simp only [chars, List.length_append, List.length_cons, List.length_nil] at enough
    have inner : readItems fuel (itemChars (item :: items) ++ ']' :: rest) =
        some (ofItems (item :: items), rest) :=
      readItems_chars (item :: items) (by simp) exact.2 (by omega)
    obtain ⟨c, more, written, visible, opens⟩ := itemChars_head (by simp) exact.2
    rw [written, List.cons_append] at inner
    simp only [chars, List.cons_append, List.append_assoc, List.nil_append, written]
    exact read_arr visible opens inner
  | .obj [] => rfl
  | .obj (member :: members) =>
    simp only [floatFree, all, Bool.and_eq_true] at exact
    simp only [chars, List.length_append, List.length_cons, List.length_nil] at enough
    have inner : readMembers fuel (memberChars (member :: members) ++ '\x7d' :: rest) =
        some (ofMembers (member :: members), rest) :=
      readMembers_chars (member :: members) (by simp) exact.2 (by omega)
    obtain ⟨more, written⟩ := memberChars_head (by simp : member :: members ≠ [])
    rw [written, List.cons_append] at inner
    simp only [chars, List.cons_append, List.append_assoc, List.nil_append, written]
    exact read_obj inner

theorem readItems_chars (items : List Json) (nonempty : items ≠ [])
    (exact : allItems (!·.isFloat) items = true) {fuel : Nat} {rest : List Char}
    (enough : (itemChars items).length + 1 ≤ fuel) :
    readItems fuel (itemChars items ++ ']' :: rest) = some (ofItems items, rest) := by
  obtain ⟨fuel, rfl⟩ : ∃ less, fuel = less + 1 := ⟨fuel - 1, by omega⟩
  match items with
  | [] => contradiction
  | [item] =>
    simp only [allItems, Bool.and_true] at exact
    exact readItems_last (read_chars item exact (by rw [itemChars] at enough; omega)
      (apart_cons rfl (by decide) (by decide) (by decide) rest))
  | item :: next :: items =>
    rw [allItems, Bool.and_eq_true] at exact
    rw [itemChars, List.length_append, List.length_cons] at enough
    · rw [itemChars, List.append_assoc, List.cons_append]
      · exact readItems_more
          (read_chars item exact.1 (by omega)
            (apart_cons rfl (by decide) (by decide) (by decide) _))
          (readItems_chars (next :: items) (by simp) exact.2 (by omega))
      · simp
    · simp

theorem readMembers_chars (members : List (String × Json)) (nonempty : members ≠ [])
    (exact : allMembers (!·.isFloat) members = true) {fuel : Nat} {rest : List Char}
    (enough : (memberChars members).length + 1 ≤ fuel) :
    readMembers fuel (memberChars members ++ '\x7d' :: rest) = some (ofMembers members, rest) := by
  obtain ⟨fuel, rfl⟩ : ∃ less, fuel = less + 1 := ⟨fuel - 1, by omega⟩
  match members with
  | [] => contradiction
  | [(name, value)] =>
    simp only [allMembers, Bool.and_true] at exact
    rw [memberChars, List.length_append, List.length_cons] at enough
    rw [memberChars, List.append_assoc, List.cons_append]
    exact readMembers_last name (read_chars value exact (by omega)
      (apart_cons rfl (by decide) (by decide) (by decide) rest))
  | (name, value) :: next :: members =>
    rw [allMembers, Bool.and_eq_true] at exact
    rw [memberChars, List.length_append, List.length_append, List.length_cons,
      List.length_cons] at enough
    · rw [memberChars, List.append_assoc, List.append_assoc, List.cons_append, List.cons_append]
      · exact readMembers_more name
          (read_chars value exact.1 (by omega)
            (apart_cons rfl (by decide) (by decide) (by decide) _))
          (readMembers_chars (next :: members) (by simp) exact.2 (by omega))
      · simp
    · simp
end

/-- The text of a value has the tree of the value. -/
theorem parse?_compact {value : Json} (exact : value.floatFree = true) :
    parse? value.compact = some (ofJson value) := by
  have whole : read (2 * value.chars.length + 1) (value.chars ++ []) = some (ofJson value, []) :=
    read_chars value exact (by omega) apart_nil
  rw [List.append_nil] at whole
  simp only [parse?, compact, String.toList_ofList, whole]
  rfl

end Tree

end Countersign.Json
