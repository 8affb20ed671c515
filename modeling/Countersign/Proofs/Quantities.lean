import Countersign.Proofs.Text.Hex
import Countersign.Quantity
import Mathlib.Data.Nat.Digits.Defs

set_option autoImplicit false

/-!
# What is read as a quantity

A quantity is a whole number that is not below zero, or a text in which digits stand behind
a marker and a plus sign, each of which may be missing. What is read is the number that the
digits denote by their places. A text whose number does not fit is refused, whatever part of
it would fit.
-/

namespace Countersign

namespace Digits

/-- The row has digits of the base, in either case, that denote the number by their places. -/
def Denotes (base : Nat) (row : List Char) (n : Nat) : Prop :=
  ∃ values : List Nat, values ≠ [] ∧ (∀ value ∈ values, value < base) ∧
    row.map Char.toLower = values.map Nat.digitChar ∧ Nat.ofDigits base values.reverse = n

variable {base n : Nat} {row : List Char}

theorem valueIn?_eq_some_iff {c : Char} {value : Nat} :
    valueIn? base c = some value ↔ value? c = some value ∧ value < base := by
  rw [valueIn?, Option.filter_eq_some_iff, decide_eq_true_eq]

/-- Reading on moves what was read so far up by as many places as there are digits to come. -/
theorem readFrom?_eq_some_iff {sofar : Nat} :
    readFrom? base sofar row = some n ↔
      ∃ values : List Nat, (∀ value ∈ values, value < base) ∧
        row.map value? = values.map some ∧
        sofar * base ^ values.length + Nat.ofDigits base values.reverse = n := by
  induction row generalizing sofar with
  | nil => simp [readFrom?]
  | cons c row ih =>
    have shifted : ∀ (value : Nat) (values : List Nat),
        (sofar * base + value) * base ^ values.length + Nat.ofDigits base values.reverse =
          sofar * base ^ (value :: values).length +
            Nat.ofDigits base (value :: values).reverse := by
      intro value values
      rw [Nat.ofDigits_reverse_cons, List.length_cons]
      ring
    constructor
    · intro read
      rw [readFrom?] at read
      split at read
      · next value digit =>
        obtain ⟨values, small, digits, total⟩ := ih.mp read
        obtain ⟨spelled, fits⟩ := valueIn?_eq_some_iff.mp digit
        refine ⟨value :: values, List.forall_mem_cons.mpr ⟨fits, small⟩, ?_, ?_⟩
        · rw [List.map_cons, List.map_cons, spelled, digits]
        · rw [← shifted, total]
      · cases read
    · rintro ⟨values, small, digits, total⟩
      obtain ⟨value, values, rfl, first, others⟩ := List.map_eq_cons_iff.mp digits.symm
      rw [List.forall_mem_cons] at small
      have digit : valueIn? base c = some value := valueIn?_eq_some_iff.mpr ⟨first.symm, small.1⟩
      rw [readFrom?, digit]
      refine ih.mpr ⟨values, small.2, others.symm, ?_⟩
      rw [shifted, total]

/-- What is read from a row of digits is the number that they denote. -/
theorem read?_eq_some_iff (known : base ≤ 16) : read? base row = some n ↔ Denotes base row n := by
  have spelled : ∀ values : List Nat, (∀ value ∈ values, value < base) →
      (row.map value? = values.map some ↔ row.map Char.toLower = values.map Nat.digitChar) := by
    intro values small
    exact Hex.map_value?_iff fun value among => (small value among).trans_le known
  cases row with
  | nil =>
    constructor
    · nofun
    · rintro ⟨values, nonempty, -, digits, -⟩
      exact absurd (List.map_eq_nil_iff.mp digits.symm) nonempty
  | cons c row =>
    rw [read?, readFrom?_eq_some_iff]
    · constructor
      · rintro ⟨values, small, digits, total⟩
        refine ⟨values, ?_, small, (spelled values small).mp digits, ?_⟩
        · rintro rfl
          cases digits
        · rwa [Nat.zero_mul, Nat.zero_add] at total
      · rintro ⟨values, -, small, digits, total⟩
        refine ⟨values, small, (spelled values small).mpr digits, ?_⟩
        rwa [Nat.zero_mul, Nat.zero_add]
    · nofun

theorem not_denotes_plus (known : base ≤ 16) : ¬Denotes base ('+' :: row) n := by
  have refused : valueIn? base '+' = none := rfl
  rw [← read?_eq_some_iff known, read?, readFrom?, refused]
  · nofun
  · nofun

end Digits

namespace Quantity

/-- The base of a text and what its marker leaves of it: `0x` and `0X` are for hexadecimal, and
a text with neither is decimal. -/
inductive Marked : List Char → Nat → List Char → Prop
  | hexadecimal (x : Char) (rest : List Char) (mark : x = 'x' ∨ x = 'X') :
    Marked ('0' :: x :: rest) 16 rest
  | decimal (text : List Char)
    (bare : ∀ x rest, x = 'x' ∨ x = 'X' → text ≠ '0' :: x :: rest) : Marked text 10 text

/-- The text spells the number, whatever its size: behind the marker there are a plus sign or
none, and then digits. -/
def Spells (text : String) (n : Nat) : Prop :=
  ∃ base rest row, Marked text.toList base rest ∧ (rest = row ∨ rest = '+' :: row) ∧
    Digits.Denotes base row n

/-- The value is the number or spells it. -/
def Denotes : Json → Nat → Prop
  | .int i, n => i.value = n
  | .str text, n => Spells text n
  | _, _ => False

theorem split_eq_iff {text rest : List Char} {base : Nat} :
    split text = (base, rest) ↔ Marked text base rest := by
  constructor
  · intro parts
    unfold split at parts
    split at parts
    · cases parts
      exact .hexadecimal 'x' rest (.inl rfl)
    · cases parts
      exact .hexadecimal 'X' rest (.inr rfl)
    · next small large =>
      cases parts
      refine .decimal text ?_
      rintro x rest (rfl | rfl)
      · exact small rest
      · exact large rest
  · rintro (⟨x, rest, rfl | rfl⟩ | ⟨text, bare⟩)
    · rfl
    · rfl
    · unfold split
      split
      · exact absurd rfl (bare 'x' _ (.inl rfl))
      · exact absurd rfl (bare 'X' _ (.inr rfl))
      · rfl

theorem unsign_cases (text : List Char) :
    (∃ rest, text = '+' :: rest ∧ unsign text = rest) ∨
      (∀ rest, text ≠ '+' :: rest) ∧ unsign text = text := by
  unfold unsign
  split
  · exact .inl ⟨_, rfl, rfl⟩
  · next bare => exact .inr ⟨bare, rfl⟩

theorem denotes_unsign_iff {base n : Nat} {text : List Char} (known : base ≤ 16) :
    Digits.Denotes base (unsign text) n ↔
      ∃ row, (text = row ∨ text = '+' :: row) ∧ Digits.Denotes base row n := by
  rcases unsign_cases text with ⟨rest, rfl, unsigned⟩ | ⟨bare, unsigned⟩
  · rw [unsigned]
    constructor
    · intro denoted
      exact ⟨rest, .inr rfl, denoted⟩
    · rintro ⟨row, rfl | same, denoted⟩
      · exact absurd denoted (Digits.not_denotes_plus known)
      · injection same with _ same
        rwa [same]
  · rw [unsigned]
    constructor
    · intro denoted
      exact ⟨text, .inl rfl, denoted⟩
    · rintro ⟨row, rfl | rfl, denoted⟩
      · exact denoted
      · exact absurd rfl (bare row)

theorem Marked.base_le {text rest : List Char} {base : Nat} (marked : Marked text base rest) :
    base ≤ 16 := by
  cases marked <;> decide

theorem Marked.unique {text rest rest' : List Char} {base base' : Nat} (one : Marked text base rest)
    (other : Marked text base' rest') : base = base' ∧ rest = rest' := by
  rw [← split_eq_iff] at one other
  exact Prod.mk.inj (one.symm.trans other)

/-- A text spells what is read from its digits, before it is asked whether that fits. -/
theorem spells_iff {text : String} {n : Nat} :
    Spells text n ↔
      Digits.read? (split text.toList).1 (unsign (split text.toList).2) = some n := by
  have marked : Marked text.toList (split text.toList).1 (split text.toList).2 :=
    split_eq_iff.mp rfl
  rw [Digits.read?_eq_some_iff marked.base_le, denotes_unsign_iff marked.base_le]
  constructor
  · rintro ⟨base, rest, row, marked', sign, denoted⟩
    obtain ⟨rfl, rfl⟩ := marked'.unique marked
    exact ⟨row, sign, denoted⟩
  · rintro ⟨row, sign, denoted⟩
    exact ⟨_, _, row, marked, sign, denoted⟩

theorem ofText?_eq_some_iff {text : String} {n : UInt64} :
    ofText? text = some n ↔ Spells text n.toNat := by
  rw [spells_iff, ofText?, Option.map_eq_some_iff]
  constructor
  · rintro ⟨m, read, rfl⟩
    rw [ofDigits?, Option.filter_eq_some_iff, decide_eq_true_eq] at read
    rw [UInt64.toNat_ofNat_of_lt' read.2, read.1]
  · intro read
    refine ⟨n.toNat, ?_, UInt64.ofNat_toNat⟩
    rw [ofDigits?, Option.filter_eq_some_iff, decide_eq_true_eq]
    exact ⟨read, n.toNat_lt⟩

theorem Denotes.unique {value : Json} {m n : Nat} (one : Denotes value m) (other : Denotes value n) :
    m = n := by
  cases value with
  | int i => exact Int.ofNat.inj (Eq.trans one.symm other)
  | str text => exact Option.some.inj ((spells_iff.mp one).symm.trans (spells_iff.mp other))
  | _ => cases one

theorem ofJson?_eq_some_iff {value : Json} {n : UInt64} :
    ofJson? value = some n ↔ Denotes value n.toNat := by
  cases value with
  | int i =>
    have fits := n.toNat_lt
    rw [ofJson?, Integer.toUInt64?, Denotes]
    constructor
    · intro read
      split at read
      · cases read
        have := i.fits.2
        rw [UInt64.toNat_ofNat_of_lt' (by rw [UInt64.size]; omega)]
        omega
      · cases read
    · intro same
      rw [if_pos (by omega), same, Int.toNat_natCast, UInt64.ofNat_toNat]
  | str text => exact ofText?_eq_some_iff
  | _ => simp [ofJson?, Denotes]

/-- A number is read from a value exactly if it fits and the value is the number or spells it. -/
theorem read_iff_denoted (value : Json) (n : Nat) :
    (ofJson? value).map UInt64.toNat = some n ↔ n < UInt64.size ∧ Denotes value n := by
  rw [Option.map_eq_some_iff]
  constructor
  · rintro ⟨number, read, rfl⟩
    exact ⟨number.toNat_lt, ofJson?_eq_some_iff.mp read⟩
  · rintro ⟨fits, denoted⟩
    have same : (UInt64.ofNat n).toNat = n := UInt64.toNat_ofNat_of_lt' fits
    refine ⟨UInt64.ofNat n, ofJson?_eq_some_iff.mpr ?_, same⟩
    rwa [same]

example : ofJson? (.str "0X+00fF") = some 255 ∧ ofJson? (.str "0x-1") = none ∧
    ofJson? (.str "18446744073709551616") = none := by decide

end Quantity

end Countersign
