import Countersign.Text.Hex

set_option autoImplicit false

/-!
# What hexadecimal text stands for

Bytes are read from a text exactly if its digits, behind at most one marker, are those of
the bytes up to the case of letters. Reading works on the bytes of the text, but what lies
beyond ASCII has no digit in it and cannot be taken for a marker. So there is something to
read exactly if there is an even number of digits and nothing else.
-/

namespace Countersign

namespace Digits

def alphabet : List Char := "0123456789abcdefABCDEF".toList

theorem value?_of_beyond {c : Char} (beyond : 128 ≤ c.toNat) : value? c = none := by
  have above : ∀ d : Char, d.toNat < 128 → ¬c ≤ d := by
    intro d ascii below
    have : c.toNat ≤ d.toNat := below
    omega
  simp [value?, above]

theorem toLower_of_beyond {c : Char} (beyond : 128 ≤ c.toNat) : c.toLower = c := by
  refine dif_neg ?_
  rintro ⟨-, below⟩
  have : c.toNat ≤ 'Z'.toNat := below
  have : 'Z'.toNat = 90 := rfl
  omega

/-- A digit stands for a number if its lower case is how that number is written. -/
theorem value?_eq_some_iff {c : Char} {n : Nat} :
    value? c = some n ↔ n < 16 ∧ c.toLower = Nat.digitChar n := by
  have ascii : ∀ k < 128, ∀ n < 16, value? (Char.ofNat k) = some n ↔
      (Char.ofNat k).toLower = Nat.digitChar n := by decide +kernel
  have bounded : ∀ k < 128, ∀ n ∈ value? (Char.ofNat k), n < 16 := by decide +kernel
  have written : ∀ n < 16, (Nat.digitChar n).toNat < 128 := by decide
  by_cases beyond : 128 ≤ c.toNat
  · rw [value?_of_beyond beyond, toLower_of_beyond beyond]
    constructor
    · nofun
    · rintro ⟨small, rfl⟩
      have := written n small
      omega
  · rw [Nat.not_le] at beyond
    have ofAscii := ascii c.toNat beyond n
    have ofBounded := bounded c.toNat beyond n
    rw [Char.ofNat_toNat] at ofAscii ofBounded
    constructor
    · intro digit
      exact ⟨ofBounded digit, (ofAscii (ofBounded digit)).mp digit⟩
    · rintro ⟨small, lower⟩
      exact (ofAscii small).mpr lower

theorem toLower_digitChar {n : Nat} (small : n < 16) :
    (Nat.digitChar n).toLower = Nat.digitChar n := by
  revert n
  decide

theorem isSome_value?_iff {c : Char} : (value? c).isSome = true ↔ c ∈ alphabet := by
  have ascii : ∀ k < 128, (value? (Char.ofNat k)).isSome = true ↔ Char.ofNat k ∈ alphabet := by
    decide +kernel
  have inside : alphabet.all (fun d => d.toNat < 128) = true := by decide +kernel
  by_cases beyond : 128 ≤ c.toNat
  · rw [value?_of_beyond beyond]
    constructor
    · nofun
    · intro membership
      have small := of_decide_eq_true (List.all_eq_true.mp inside c membership)
      omega
  · have ofAscii := ascii c.toNat (Nat.not_le.mp beyond)
    rwa [Char.ofNat_toNat] at ofAscii

end Digits

/-- A character is one byte of its own, or begins with a byte beyond ASCII. -/
theorem Utf8.encodeChar_cases (c : Char) :
    (c.toNat < 128 ∧ String.utf8EncodeChar c = [UInt8.ofNat c.toNat]) ∨
      128 ≤ c.toNat ∧ ∃ lead tail, String.utf8EncodeChar c = lead :: tail ∧ 128 ≤ lead.toNat := by
  rw [String.utf8EncodeChar, ← Char.toNat]
  generalize c.toNat = v
  split
  · exact .inl ⟨by omega, rfl⟩
  · refine .inr ⟨by omega, ?_⟩
    split
    · refine ⟨_, _, rfl, ?_⟩
      rw [UInt8.toNat_ofNat']
      omega
    · split
      · refine ⟨_, _, rfl, ?_⟩
        rw [UInt8.toNat_ofNat']
        omega
      · refine ⟨_, _, rfl, ?_⟩
        rw [UInt8.toNat_ofNat']
        omega

namespace Hex

/-- The digits of the bytes, in either case. -/
def Spells (digits : List Char) (bytes : List UInt8) : Prop :=
  digits.map Char.toLower = bytes.flatMap digitsOf

/-- What is left of a text when at most one marker in front is taken off. -/
def Holds (text : String) (digits : List Char) : Prop :=
  text.toList = digits ∨ text.toList = '0' :: 'x' :: digits

def Writes (text : String) (bytes : List UInt8) : Prop :=
  ∃ digits, Holds text digits ∧ Spells digits bytes

/-! ### Halves of bytes -/

def halves (bytes : List UInt8) : List Nat :=
  bytes.flatMap fun byte => [byte.toNat / 16, byte.toNat % 16]

theorem halves_lt (bytes : List UInt8) : ∀ n ∈ halves bytes, n < 16 := by
  intro n membership
  obtain ⟨byte, -, inByte⟩ := List.mem_flatMap.mp membership
  have small := byte.toNat_lt
  simp only [List.mem_cons, List.not_mem_nil, or_false] at inByte
  omega

theorem length_halves (bytes : List UInt8) : (halves bytes).length = 2 * bytes.length := by
  induction bytes with
  | nil => rfl
  | cons byte rest ih =>
    rw [halves, List.flatMap_cons, ← halves, List.length_append, ih, List.length_cons]
    simp only [List.length_cons, List.length_nil]
    omega

theorem halves_cons {high low : Nat} (highSmall : high < 16) (lowSmall : low < 16)
    (rest : List UInt8) :
    halves (UInt8.ofNat (high * 16 + low) :: rest) = high :: low :: halves rest := by
  have byte : (UInt8.ofNat (high * 16 + low)).toNat = high * 16 + low := by
    rw [UInt8.toNat_ofNat']
    omega
  have upper : (high * 16 + low) / 16 = high := by omega
  have lower : (high * 16 + low) % 16 = low := by omega
  rw [halves, List.flatMap_cons, ← halves, byte, upper, lower]
  rfl

/-- An even number of halves makes bytes. -/
theorem exists_halves : (numbers : List Nat) → (∀ n ∈ numbers, n < 16) → numbers.length % 2 = 0 →
    ∃ bytes, halves bytes = numbers
  | [], _, _ => ⟨[], rfl⟩
  | [_], _, even => by cases even
  | high :: low :: rest, small, even => by
    simp only [List.forall_mem_cons] at small
    simp only [List.length_cons] at even
    obtain ⟨bytes, same⟩ := exists_halves rest small.2.2 (by omega)
    exact ⟨_, same ▸ halves_cons small.1 small.2.1 bytes⟩

theorem map_digitChar_halves (bytes : List UInt8) :
    (halves bytes).map Nat.digitChar = bytes.flatMap digitsOf := by
  rw [halves, List.map_flatMap]
  rfl

/-- Reading in pairs gives the bytes whose halves the digits are. -/
theorem pairs_eq_ok_iff {position : Nat} {row bytes : List UInt8} :
    pairs position row = .ok bytes ↔ row.map digit? = (halves bytes).map some := by
  constructor
  · intro read
    fun_induction pairs position row generalizing bytes with
    | case1 =>
      cases read
      rfl
    | case2 => cases read
    | case3 => cases read
    | case4 => cases read
    | case5 position a b rest high low second first tail ok ih =>
      cases read
      rw [halves_cons (Digits.value?_eq_some_iff.mp first).1 (Digits.value?_eq_some_iff.mp second).1]
      simp only [List.map_cons, first, second, ih ok]
    | case6 => cases read
  · intro digits
    induction bytes generalizing position row with
    | nil =>
      rw [List.map_eq_nil_iff.mp digits]
      rfl
    | cons byte rest ih =>
      obtain ⟨a, row, rfl, first, digits⟩ := List.map_eq_cons_iff.mp digits
      obtain ⟨b, row, rfl, second, digits⟩ := List.map_eq_cons_iff.mp digits
      have whole : byte.toNat / 16 * 16 + byte.toNat % 16 = byte.toNat := by omega
      rw [pairs, first, second, ih digits]
      simp only [whole, UInt8.ofNat_toNat]

/-! ### Bytes of characters -/

theorem digit?_of_beyond {byte : UInt8} (beyond : 128 ≤ byte.toNat) : digit? byte = none := by
  have latin : ∀ n < 256, 128 ≤ n → Digits.value? (Char.ofNat n) = none := by decide +kernel
  exact latin byte.toNat byte.toNat_lt beyond

/-- The bytes of characters are digits exactly if the characters are. -/
theorem map_digit?_iff {chars : List Char} {numbers : List Nat} :
    (chars.flatMap String.utf8EncodeChar).map digit? = numbers.map some ↔
      chars.map Digits.value? = numbers.map some := by
  induction chars generalizing numbers with
  | nil => rfl
  | cons c rest ih =>
    rw [List.flatMap_cons, List.map_append, List.map_cons]
    rcases Utf8.encodeChar_cases c with ⟨ascii, single⟩ | ⟨beyond, lead, tail, long, high⟩
    · have same : digit? (UInt8.ofNat c.toNat) = Digits.value? c := by
        rw [digit?, UInt8.toNat_ofNat', Nat.mod_eq_of_lt (by omega), Char.ofNat_toNat]
      rw [single, List.map_singleton, same, List.singleton_append]
      cases numbers with
      | nil => simp
      | cons n numbers => simp only [List.map_cons, List.cons.injEq, ih]
    · rw [long, List.map_cons, digit?_of_beyond high, Digits.value?_of_beyond beyond]
      cases numbers <;> simp

theorem map_value?_iff {digits : List Char} {numbers : List Nat} (small : ∀ n ∈ numbers, n < 16) :
    digits.map Digits.value? = numbers.map some ↔
      digits.map Char.toLower = numbers.map Nat.digitChar := by
  induction digits generalizing numbers with
  | nil => cases numbers <;> simp
  | cons c rest ih =>
    cases numbers with
    | nil => simp
    | cons n numbers =>
      rw [List.forall_mem_cons] at small
      simp only [List.map_cons, List.cons.injEq, ih small.2, Digits.value?_eq_some_iff, small.1,
        true_and]

/-- Reading the bytes of some characters gives what they spell. -/
theorem pairs_encoded_iff {position : Nat} {digits : List Char} {bytes : List UInt8} :
    pairs position (digits.flatMap String.utf8EncodeChar) = .ok bytes ↔ Spells digits bytes := by
  rw [pairs_eq_ok_iff, map_digit?_iff, map_value?_iff (halves_lt bytes), map_digitChar_halves,
    Spells]

/-! ### The marker -/

/-- The row of bytes has a marker in front, or nothing is taken off. -/
theorem unmark_cases (row : List UInt8) : row = 0x30 :: 0x78 :: unmark row ∨ unmark row = row := by
  unfold unmark
  split
  · exact .inl rfl
  · exact .inr rfl

/-- A byte of ASCII at the beginning of some characters is the first of them. -/
theorem chars_of_ascii {chars : List Char} {byte : UInt8} {row : List UInt8}
    (ascii : byte.toNat < 128) (bytes : chars.flatMap String.utf8EncodeChar = byte :: row) :
    ∃ rest, chars = Char.ofNat byte.toNat :: rest ∧ rest.flatMap String.utf8EncodeChar = row := by
  cases chars with
  | nil => cases bytes
  | cons c rest =>
    rw [List.flatMap_cons] at bytes
    rcases Utf8.encodeChar_cases c with ⟨small, single⟩ | ⟨-, lead, tail, long, high⟩
    · rw [single, List.singleton_append] at bytes
      injection bytes with first others
      refine ⟨rest, ?_, others⟩
      rw [← first, UInt8.toNat_ofNat', Nat.mod_eq_of_lt (by omega), Char.ofNat_toNat]
    · rw [long, List.cons_append] at bytes
      injection bytes with first others
      rw [first] at high
      omega

/-- What is read from a text is what it stands for. -/
theorem decode_eq_ok_iff {text : String} {bytes : List UInt8} :
    decode text = .ok bytes ↔ Writes text bytes := by
  have row : Utf8.encode text = text.toList.flatMap String.utf8EncodeChar := rfl
  constructor
  · intro read
    rw [decode] at read
    split at read
    · cases read
    · rcases unmark_cases (Utf8.encode text) with marked | unmarked
      · obtain ⟨others, first, marked⟩ := chars_of_ascii (by decide) (row.symm.trans marked)
        obtain ⟨digits, second, marked⟩ := chars_of_ascii (by decide) marked
        rw [← marked] at read
        exact ⟨digits, .inr (by rw [first, second]; rfl), pairs_encoded_iff.mp read⟩
      · rw [unmarked] at read
        exact ⟨text.toList, .inl rfl, pairs_encoded_iff.mp read⟩
  · rintro ⟨digits, held, spelled⟩
    have read : pairs 0 (digits.flatMap String.utf8EncodeChar) = .ok bytes :=
      pairs_encoded_iff.mpr spelled
    have even := length_of_pairs read
    rcases held with bare | marked
    · have kept : unmark (Utf8.encode text) = digits.flatMap String.utf8EncodeChar := by
        rw [row, bare]
        -- no digit is read as the second byte of the marker
        rcases unmark_cases (digits.flatMap String.utf8EncodeChar) with marked | unmarked
        · rw [marked, pairs] at read
          cases read
        · exact unmarked
      rw [decode, kept, read, row, bare, if_neg (by omega)]
    · have bytes : Utf8.encode text = 0x30 :: 0x78 :: digits.flatMap String.utf8EncodeChar := by
        rw [row, marked]
        rfl
      rw [decode, bytes, if_neg]
      · exact read
      · simp only [List.length_cons]
        omega

/-- Bytes of a fixed number are read just as bytes of any number. -/
theorem ofHex_eq_ok_iff {size : Nat} {text : String} {fixed : FixedBytes size} :
    FixedBytes.ofHex size text = .ok fixed ↔ Writes text fixed.bytes := by
  rw [← decode_eq_ok_iff]
  constructor
  · intro read
    simp only [FixedBytes.ofHex] at read
    split at read
    · cases read
    · next even =>
      split at read
      · split at read
        · next bytes ok =>
          cases read
          exact (if_neg even).trans ok
        · cases read
      · cases read
  · intro read
    rw [decode] at read
    split at read
    · cases read
    · next even =>
      have fits : (unmark (Utf8.encode text)).length = 2 * size := by
        rw [length_of_pairs read, fixed.length_eq]
      rw [FixedBytes.ofHex, if_neg even, dif_pos fits]
      split
      · next bytes ok =>
        rw [read] at ok
        cases ok
        rfl
      · next e failed =>
        rw [read] at failed
        cases failed

theorem length_of_spells {digits : List Char} {bytes : List UInt8}
    (spelled : Spells digits bytes) : digits.length = 2 * bytes.length := by
  rw [← length_halves, ← List.length_map Nat.digitChar, map_digitChar_halves, ← spelled,
    List.length_map]

/-- Something can be read exactly from an even number of digits. -/
theorem exists_spells_iff {digits : List Char} :
    (∃ bytes, Spells digits bytes) ↔
      digits.length % 2 = 0 ∧ ∀ c ∈ digits, c ∈ Digits.alphabet := by
  have values : ∀ bytes, Spells digits bytes ↔
      digits.map Digits.value? = (halves bytes).map some := by
    intro bytes
    rw [map_value?_iff (halves_lt bytes), map_digitChar_halves, Spells]
  constructor
  · rintro ⟨bytes, spelled⟩
    constructor
    · have length := length_of_spells spelled
      omega
    · rw [values] at spelled
      intro c membership
      have found : Digits.value? c ∈ (halves bytes).map some :=
        spelled ▸ List.mem_map_of_mem membership
      obtain ⟨n, -, digit⟩ := List.mem_map.mp found
      rw [← Digits.isSome_value?_iff, ← digit]
      rfl
  · rintro ⟨even, inside⟩
    have numbers : digits.map Digits.value? = (digits.filterMap Digits.value?).map some := by
      rw [List.map_filterMap_some_eq_filter_map_isSome, List.filter_eq_self.mpr]
      intro value membership
      obtain ⟨c, inDigits, rfl⟩ := List.mem_map.mp membership
      exact Digits.isSome_value?_iff.mpr (inside c inDigits)
    have small : ∀ n ∈ digits.filterMap Digits.value?, n < 16 := by
      intro n membership
      obtain ⟨c, -, digit⟩ := List.mem_filterMap.mp membership
      exact (Digits.value?_eq_some_iff.mp digit).1
    have length : digits.length = (digits.filterMap Digits.value?).length := by
      simpa only [List.length_map] using congrArg List.length numbers
    obtain ⟨bytes, same⟩ := exists_halves _ small (length ▸ even)
    refine ⟨bytes, ?_⟩
    rw [values, numbers, same]

end Hex

end Countersign
