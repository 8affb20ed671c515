import Countersign.Proofs.Quantities
import Countersign.Request.Failure
import Mathlib.Data.Nat.Digits.Lemmas

set_option autoImplicit false

/-!
# The text of a request id

An id is read back from the text it is sent as, from its number and from its decimal text.
However an id was spelled, it is sent as one text: among all texts of its form there is no
other that is read as the id.
-/

namespace Countersign

namespace Digits

theorem toDigits_eq_map_digits {base n : Nat} (large : 1 < base) (positive : 0 < n) :
    Nat.toDigits base n = (Nat.digits base n).reverse.map Nat.digitChar := by
  induction n using Nat.strongRecOn with
  | _ n ih =>
    rw [Nat.toDigits_eq_if large, Nat.digits_def' large positive]
    split
    · next single =>
      rw [Nat.div_eq_of_lt single, Nat.mod_eq_of_lt single, Nat.digits_zero]
      rfl
    · next several =>
      have less : n / base < n := Nat.div_lt_self positive large
      rw [ih (n / base) less (Nat.div_pos (Nat.le_of_not_lt several) (by omega)),
        List.reverse_cons, List.map_append]
      rfl

/-- A number is denoted by the digits it is written with. -/
theorem denotes_toDigits {base : Nat} (large : 1 < base) (known : base ≤ 16) (n : Nat) :
    Denotes base (Nat.toDigits base n) n := by
  rcases Nat.eq_zero_or_pos n with rfl | positive
  · refine ⟨[0], by simp, by simpa using Nat.zero_lt_of_lt large, ?_, Nat.ofDigits_singleton⟩
    rw [Nat.toDigits_of_lt_base (Nat.zero_lt_of_lt large)]
    rfl
  · have small : ∀ value ∈ (Nat.digits base n).reverse, value < base := by
      intro value among
      exact Nat.digits_lt_base large (List.mem_reverse.mp among)
    refine ⟨(Nat.digits base n).reverse, ?_, small, ?_, ?_⟩
    · rw [Ne, List.reverse_eq_nil_iff]
      exact Nat.digits_ne_nil_iff_ne_zero.mpr positive.ne'
    · rw [toDigits_eq_map_digits large positive, List.map_map]
      apply List.map_congr_left
      intro value among
      exact toLower_digitChar ((small value among).trans_le known)
    · rw [List.reverse_reverse, Nat.ofDigits_digits]

def lowerCase : List Char := "0123456789abcdef".toList

theorem toLower_of_lowerCase {c : Char} (lower : c ∈ lowerCase) : c.toLower = c := by
  have unchanged : lowerCase.all (fun c => c.toLower == c) = true := by decide
  exact beq_iff_eq.mp (List.all_eq_true.mp unchanged c lower)

theorem digitChar_mem_lowerCase {value : Nat} (small : value < 16) :
    Nat.digitChar value ∈ lowerCase := by
  revert value
  decide

/-- A row of lower-case digits that begins with zero only if it has no other. -/
structure Tidy (row : List Char) : Prop where
  nonempty : row ≠ []
  lower : ∀ c ∈ row, c ∈ lowerCase
  first : row.head? = some '0' → row = ['0']

theorem tidy_toDigits (n : Nat) : Tidy (Nat.toDigits 16 n) := by
  rcases Nat.eq_zero_or_pos n with rfl | positive
  · refine ⟨by decide, ?_, fun _ => rfl⟩
    intro c zero
    rw [List.mem_singleton.mp zero]
    decide
  · refine ⟨Nat.toDigits_ne_nil, ?_, ?_⟩
    · intro c among
      rw [toDigits_eq_map_digits (by decide) positive] at among
      obtain ⟨value, digit, rfl⟩ := List.mem_map.mp among
      exact digitChar_mem_lowerCase (Nat.digits_lt_base (by decide) (List.mem_reverse.mp digit))
    · intro zero
      have nonempty : Nat.digits 16 n ≠ [] := Nat.digits_ne_nil_iff_ne_zero.mpr positive.ne'
      rw [toDigits_eq_map_digits (by decide) positive, List.head?_map, List.head?_reverse,
        List.getLast?_eq_some_getLast nonempty, Option.map_some, Option.some.injEq,
        Nat.digitChar_eq_zero] at zero
      exact absurd zero (Nat.getLast_digit_ne_zero 16 positive.ne')

/-- A tidy row that denotes a number is how the number is written. -/
theorem Tidy.eq_toDigits {row : List Char} {n : Nat} (tidy : Tidy row)
    (denoted : Denotes 16 row n) : row = Nat.toDigits 16 n := by
  obtain ⟨values, nonempty, small, digits, total⟩ := denoted
  have same : row = values.map Nat.digitChar := by
    rw [← digits, List.map_congr_left fun c among => toLower_of_lowerCase (tidy.lower c among),
      List.map_id']
  by_cases zero : row.head? = some '0'
  · have single := tidy.first zero
    rw [single] at same
    obtain ⟨value, rfl, char⟩ := List.map_eq_singleton_iff.mp same.symm
    rw [Nat.digitChar_eq_zero.mp char] at total
    rw [single, ← total]
    rfl
  · have leading : ∀ present : values.reverse ≠ [], values.reverse.getLast present ≠ 0 := by
      intro present last
      apply zero
      rw [same, List.head?_map, ← List.getLast?_reverse, List.getLast?_eq_some_getLast present, last]
      rfl
    have expansion : Nat.digits 16 n = values.reverse := by
      rw [← total]
      refine Nat.digits_ofDigits 16 (by decide) _ ?_ leading
      intro value among
      exact small value (List.mem_reverse.mp among)
    have positive : 0 < n := by
      rw [Nat.pos_iff_ne_zero, ← Nat.digits_ne_nil_iff_ne_zero (b := 16), expansion, Ne,
        List.reverse_eq_nil_iff]
      exact nonempty
    rw [toDigits_eq_map_digits (by decide) positive, expansion, List.reverse_reverse, same]

end Digits

namespace RequestId

def Canonical (text : String) : Prop :=
  ∃ row, text.toList = '0' :: 'x' :: row ∧ Digits.Tidy row

theorem toList_text (id : RequestId) :
    id.text.toList = '0' :: 'x' :: Nat.toDigits 16 id.val.toNat := by
  simp [text, Digits.hex]

theorem canonical_text (id : RequestId) : Canonical id.text :=
  ⟨_, id.toList_text, Digits.tidy_toDigits _⟩

theorem spells_text (id : RequestId) : Quantity.Spells id.text id.val.toNat := by
  refine ⟨16, _, _, ?_, .inl rfl, Digits.denotes_toDigits (by decide) (by decide) _⟩
  rw [toList_text]
  exact .hexadecimal 'x' _ (.inl rfl)

theorem spells_decimal (n : Nat) : Quantity.Spells (Digits.decimal n) n := by
  refine ⟨10, _, _, ?_, .inl rfl, Digits.denotes_toDigits (by decide) (by decide) _⟩
  rw [Digits.decimal, String.toList_ofList]
  refine .decimal _ ?_
  intro x rest mark written
  have among : x ∈ Nat.toDigits 10 n := by simp [written]
  have digit : x.isDigit = true := Nat.isDigit_of_mem_toDigits (by decide) (by decide) among
  rcases mark with rfl | rfl <;> cases digit

/-- The only text of the form that spells an id is the one that it is sent as. -/
theorem Canonical.eq_text {text : String} {id : RequestId} (canonical : Canonical text)
    (spelled : Quantity.Spells text id.val.toNat) : text = id.text := by
  obtain ⟨row, written, tidy⟩ := canonical
  obtain ⟨base, rest, digits, marked, sign, denoted⟩ := spelled
  rw [written] at marked
  obtain ⟨rfl, rfl⟩ := marked.unique (.hexadecimal 'x' row (.inl rfl))
  have unsigned : rest = digits := by
    refine sign.resolve_right ?_
    rintro rfl
    exact absurd (tidy.lower '+' (by simp)) (by decide)
  subst unsigned
  rw [← String.toList_inj, written, toList_text, tidy.eq_toDigits denoted]

theorem ofJson_eq_ok_iff_denotes {value : Json} {id : RequestId} :
    ofJson value = .ok id ↔ Quantity.Denotes value id.val.toNat := by
  rw [← Quantity.ofJson?_eq_some_iff, ofJson, ofJson?]
  obtain ⟨n⟩ := id
  cases Quantity.ofJson? value <;> simp

theorem ofJson_canonical_iff {text : String} {id : RequestId} :
    Canonical text ∧ ofJson (.str text) = .ok id ↔ text = id.text := by
  rw [ofJson_eq_ok_iff_denotes]
  constructor
  · rintro ⟨canonical, spelled⟩
    exact canonical.eq_text spelled
  · rintro rfl
    exact ⟨id.canonical_text, id.spells_text⟩

theorem param_inj {one other : RequestId} (same : one.param = other.param) : one = other := by
  have read := (ofJson_canonical_iff.mpr (Json.str.inj same)).2
  rw [(ofJson_canonical_iff.mpr rfl).2] at read
  exact Except.ok.inj read

/-- An id is read from the text that it is sent as, from its number and from its decimal text.
Whatever value an id was read from, it is sent as the one canonical text that is read as it; so
two values come to the same text exactly if they denote the same number. -/
theorem ids_have_one_text :
    (∀ id : RequestId, ofJson id.param = .ok id ∧ ofJson (.ofUInt64 id.val) = .ok id ∧
      ofJson (.str (Digits.decimal id.val.toNat)) = .ok id) ∧
    (∀ value id, ofJson value = .ok id →
      ∃ text, id.param = .str text ∧
        ∀ other, Canonical other ∧ ofJson (.str other) = ofJson value ↔ other = text) ∧
    ∀ one two a b, ofJson one = .ok a → ofJson two = .ok b →
      (a.param = b.param ↔ ∃ n, Quantity.Denotes one n ∧ Quantity.Denotes two n) := by
  refine ⟨?_, ?_, ?_⟩
  · intro id
    exact ⟨ofJson_eq_ok_iff_denotes.mpr id.spells_text, ofJson_eq_ok_iff_denotes.mpr rfl,
      ofJson_eq_ok_iff_denotes.mpr (spells_decimal _)⟩
  · intro value id read
    refine ⟨id.text, rfl, ?_⟩
    intro other
    rw [read, ofJson_canonical_iff]
  · intro one two a b first second
    rw [ofJson_eq_ok_iff_denotes] at first second
    constructor
    · intro same
      obtain rfl := param_inj same
      exact ⟨_, first, second⟩
    · rintro ⟨n, denoted, denoted'⟩
      have same : a.val.toNat = b.val.toNat :=
        (first.unique denoted).trans (denoted'.unique second)
      rw [param, text, same]
      rfl

/-- Two spellings of one id, and the text that it is sent as. -/
theorem ids_spelled_differently :
    ofJson (.str "0X+00fF") = .ok ⟨255⟩ ∧ ofJson (.ofUInt64 255) = .ok ⟨255⟩ ∧
      (∃ n, Quantity.Denotes (.str "0X+00fF") n ∧ Quantity.Denotes (.ofUInt64 255) n) ∧
      ∃ text, param ⟨255⟩ = .str text ∧
        ∀ other, Canonical other ∧ ofJson (.str other) = ofJson (.str "0X+00fF") ↔
          other = text := by
  have one : ofJson (.str "0X+00fF") = .ok ⟨255⟩ := rfl
  have two : ofJson (.ofUInt64 255) = .ok ⟨255⟩ := rfl
  exact ⟨one, two, (ids_have_one_text.2.2 _ _ _ _ one two).mp rfl, ids_have_one_text.2.1 _ _ one⟩

end RequestId

end Countersign
