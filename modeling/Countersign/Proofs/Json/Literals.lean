import Countersign.Json.Numeral
import Countersign.Json.Text

set_option autoImplicit false

/-!
# Strings and whole numbers read back

The text of a string or of a whole number is read as one literal, whatever stands behind
it, and the literal denotes what was written. Behind a number the text must not go on as a
number does; what follows a value in a document never does.
-/

namespace Countersign.Json

/-! ### String literals -/

namespace Part

/-- The part that a character is written as: a unit where the escape is one. -/
def written (c : Char) : Part :=
  match escape c with
  | ['\\', 'u', _, _, _, _] => .unit c.toNat
  | _ => .char c

theorem read?_of_lt {n : Nat} (low : n < 32) :
    Digits.read? 16 ['0', '0', Nat.digitChar (n / 16), Nat.digitChar (n % 16)] = some n := by
  revert n
  decide

/-- How a character is escaped: by a letter, as a unit, or not at all. -/
theorem escape_cases (c : Char) :
    (∃ letter, letter ≠ 'u' ∧ escape c = ['\\', letter] ∧ short? letter = some c ∧
        written c = .char c) ∨
      (c.toNat < 32 ∧ written c = .unit c.toNat ∧
        escape c = ['\\', 'u', '0', '0', Nat.digitChar (c.toNat / 16),
          Nat.digitChar (c.toNat % 16)]) ∨
      (escape c = [c] ∧ written c = .char c ∧ c ≠ '"' ∧ c ≠ '\\' ∧ ¬c < ' ') := by
  by_cases quote : c = '"'
  · subst quote
    exact .inl ⟨'"', by decide, rfl, rfl, rfl⟩
  by_cases slash : c = '\\'
  · subst slash
    exact .inl ⟨'\\', by decide, rfl, rfl, rfl⟩
  by_cases back : c = '\x08'
  · subst back
    exact .inl ⟨'b', by decide, rfl, rfl, rfl⟩
  by_cases feed : c = '\x0C'
  · subst feed
    exact .inl ⟨'f', by decide, rfl, rfl, rfl⟩
  by_cases line : c = '\n'
  · subst line
    exact .inl ⟨'n', by decide, rfl, rfl, rfl⟩
  by_cases carriage : c = '\r'
  · subst carriage
    exact .inl ⟨'r', by decide, rfl, rfl, rfl⟩
  by_cases tab : c = '\t'
  · subst tab
    exact .inl ⟨'t', by decide, rfl, rfl, rfl⟩
  by_cases low : c < ' '
  · have escaped : escape c = ['\\', 'u', '0', '0', Nat.digitChar (c.toNat / 16),
        Nat.digitChar (c.toNat % 16)] := by
      simp [escape, quote, slash, back, feed, line, carriage, tab, low]
    refine .inr (.inl ⟨?_, by simp [written, escaped], escaped⟩)
    exact low
  · have escaped : escape c = [c] := by
      simp [escape, quote, slash, back, feed, line, carriage, tab, low]
    exact .inr (.inr ⟨escaped, by simp [written, escaped], quote, slash, low⟩)

theorem scan_escape (c : Char) {text rest : List Char} {parts : List Part}
    (scanned : scan text = some (parts, rest)) :
    scan (escape c ++ text) = some (written c :: parts, rest) := by
  rcases escape_cases c with
    ⟨letter, notUnit, escaped, short, part⟩ | ⟨low, part, escaped⟩ | ⟨escaped, part, h⟩
  · rw [escaped, part]
    rw [List.cons_append, List.cons_append, List.nil_append, scan]
    · simp [short, scanned]
    · intro a b c d tail same
      simp_all
  · rw [escaped, part]
    simp only [List.cons_append, List.nil_append]
    rw [scan, read?_of_lt low, scanned]
  · obtain ⟨notQuote, notSlash, high⟩ := h
    rw [escaped, part, List.cons_append, List.nil_append, scan]
    · simp [notSlash, high, scanned]
    all_goals simp_all

theorem scan_flatMap_escape (chars rest : List Char) :
    scan (chars.flatMap escape ++ '"' :: rest) = some (chars.map written, rest) := by
  induction chars with
  | nil => rfl
  | cons c chars ih =>
    rw [List.flatMap_cons, List.append_assoc, scan_escape c ih]
    rfl

theorem chars?_written (c : Char) (parts : List Part) :
    chars? (written c :: parts) = (chars? parts).map (c :: ·) := by
  rcases escape_cases c with ⟨_, _, _, _, part⟩ | ⟨low, part, _⟩ | ⟨_, part, _⟩
  · rw [part, chars?]
  · -- a unit below the space is no surrogate, whether or not another unit follows it
    have notHigh : isHigh c.toNat = false := by simp [isHigh]; omega
    have notLow : isLow c.toNat = false := by simp [isLow]; omega
    rw [part]
    rcases parts with - | ⟨⟨d⟩ | ⟨u⟩, parts⟩ <;> simp [chars?, notHigh, notLow, Char.ofNat_toNat]
  · rw [part, chars?]

theorem text?_written (text : String) : text? (text.toList.map written) = some text := by
  have spelled : ∀ chars : List Char, chars? (chars.map written) = some chars := by
    intro chars
    induction chars with
    | nil => rfl
    | cons c chars ih => rw [List.map_cons, chars?_written, ih, Option.map_some]
  rw [text?, spelled, Option.map_some, String.ofList_toList]

end Part

/-! ### Whole numbers -/

/-- A number may end before this text, since the text does not go on with it. -/
def Apart (rest : List Char) : Prop :=
  ∀ c ∈ rest.head?, c.isDigit = false ∧ c ≠ '.' ∧ c ≠ 'e' ∧ c ≠ 'E'

theorem apart_nil : Apart [] := by simp [Apart]

theorem apart_cons {c : Char} (digit : c.isDigit = false) (point : c ≠ '.') (small : c ≠ 'e')
    (large : c ≠ 'E') (rest : List Char) : Apart (c :: rest) := by
  simp [Apart, digit, point, small, large]

namespace Numeral

theorem digits_append {row rest : List Char} (nonempty : row ≠ [])
    (all : ∀ c ∈ row, c.isDigit = true) (ends : ∀ c ∈ rest.head?, c.isDigit = false) :
    digits (row ++ rest) = some (row, rest) := by
  have taken : rest.takeWhile Char.isDigit = [] := by
    cases rest with
    | nil => rfl
    | cons c rest => simp [ends c rfl]
  have left : rest.dropWhile Char.isDigit = rest := by
    cases rest with
    | nil => rfl
    | cons c rest => simp [ends c rfl]
  rw [digits, List.takeWhile_append_of_pos all, List.dropWhile_append_of_pos all, taken, left,
    List.append_nil]
  split
  · contradiction
  · rfl

theorem toDigits_head (n : Nat) :
    ∃ first more, Nat.toDigits 10 n = first :: more ∧ first.isDigit = true := by
  cases written : Nat.toDigits 10 n with
  | nil => exact absurd written Nat.toDigits_ne_nil
  | cons first more =>
    have among : first ∈ Nat.toDigits 10 n := by simp [written]
    exact ⟨first, more, rfl, Nat.isDigit_of_mem_toDigits (by decide) (by decide) among⟩

/-- Digits do not begin with a zero, unless the number is zero. -/
theorem head_toDigits (n : Nat) (digit : Char) (rest : List Char)
    (written : Nat.toDigits 10 n = '0' :: digit :: rest) : False := by
  induction n using Nat.strongRecOn generalizing digit rest with
  | _ n ih =>
    rw [Nat.toDigits_eq_if (by decide)] at written
    split at written
    · simp at written
    · next large =>
      obtain ⟨first, more, front, -⟩ := toDigits_head (n / 10)
      rw [front] at written
      cases more with
      | cons second more =>
        have same : first = '0' := by
          simp only [List.cons_append, List.cons.injEq] at written
          exact written.1
        subst same
        exact ih (n / 10) (by omega) second more front
      | nil =>
        simp only [List.cons_append, List.cons.injEq] at written
        rw [written.1, Nat.toDigits_eq_if (by decide)] at front
        split at front
        · simp only [List.cons.injEq, Nat.digitChar_eq_zero, and_true] at front
          omega
        · have lengths := congrArg List.length front
          have positive := @Nat.length_toDigits_pos 10 (n / 10 / 10)
          simp only [List.length_append, List.length_cons, List.length_nil] at lengths
          omega

theorem scanWhole_toDigits (n : Nat) {rest : List Char} (apart : Apart rest) :
    scanWhole (Nat.toDigits 10 n ++ rest) = some (Nat.toDigits 10 n, rest) := by
  have row := digits_append (Nat.toDigits_ne_nil : Nat.toDigits 10 n ≠ [])
    (fun c membership => Nat.isDigit_of_mem_toDigits (by decide) (by decide) membership)
    (fun c membership => (apart c membership).1)
  rw [scanWhole, row]
  split
  · next zero => exact (head_toDigits n _ _ (congrArg Prod.fst (Option.some.inj zero))).elim
  · rfl

/-- Behind a number that stands apart there is neither a fraction nor an exponent. -/
theorem scanUnsigned_toDigits (negative : Bool) (n : Nat) {rest : List Char} (apart : Apart rest) :
    scanUnsigned negative (Nat.toDigits 10 n ++ rest) =
      some (⟨negative, Nat.toDigits 10 n, [], none⟩, rest) := by
  have fraction : scanFraction rest = some ([], rest) := by
    unfold scanFraction
    split
    · exact absurd rfl (apart '.' rfl).2.1
    · rfl
  have exponent : scanExponent rest = some (none, rest) := by
    unfold scanExponent
    split
    · exact absurd rfl (apart 'e' rfl).2.2.1
    · exact absurd rfl (apart 'E' rfl).2.2.2
    · rfl
  simp only [scanUnsigned, scanWhole_toDigits n apart, fraction, exponent]

def ofInteger (n : Integer) : Numeral :=
  ⟨decide (n.value < 0), Nat.toDigits 10 n.value.natAbs, [], none⟩

theorem integerText_eq (n : Integer) :
    integerText n =
      if n.value < 0 then '-' :: Nat.toDigits 10 n.value.natAbs
      else Nat.toDigits 10 n.value.natAbs := by
  unfold integerText Digits.signed
  split <;> simp [Digits.decimal]

/-- A whole number begins with its sign or a digit. -/
theorem integerText_head (n : Integer) :
    ∃ c rest, integerText n = c :: rest ∧ (c = '-' ∨ c.isDigit = true) := by
  rw [integerText_eq]
  split
  · exact ⟨_, _, rfl, .inl rfl⟩
  · obtain ⟨first, more, written, digit⟩ := toDigits_head n.value.natAbs
    exact ⟨first, more, written, .inr digit⟩

theorem scan_integerText (n : Integer) {rest : List Char} (apart : Apart rest) :
    scan (integerText n ++ rest) = some (ofInteger n, rest) := by
  rw [integerText_eq]
  split
  · next negative =>
    rw [List.cons_append, scan, scanUnsigned_toDigits true _ apart]
    simp [ofInteger, negative]
  · next positive =>
    rw [scan, scanUnsigned_toDigits false _ apart]
    · simp [ofInteger, positive]
    · intro tail minus
      obtain ⟨first, more, written, digit⟩ := toDigits_head n.value.natAbs
      rw [written, List.cons_append, List.cons.injEq] at minus
      rw [minus.1] at digit
      cases digit

theorem value?_ofInteger (n : Integer) : (ofInteger n).value? = some (.int n) := by
  have whole : (ofInteger n).integer? = some n := by
    obtain ⟨value, fits⟩ := n
    simp only [integer?, ofInteger, isWhole, List.isEmpty_nil, Option.isNone_none, Bool.and_self,
      if_true, Nat.ofDigitChars_ten_toDigits, decide_eq_true_eq]
    split
    · next negative =>
      have same : -(value.natAbs : Int) = value := by omega
      rw [if_neg (by omega), same, Integer.ofInt?, dif_pos fits]
    · next positive =>
      have same : (value.natAbs : Int) = value := by omega
      rw [same, Integer.ofInt?, dif_pos fits]
  rw [value?, whole]

end Numeral

end Countersign.Json
