import Countersign.Proofs.Json.Literals

set_option autoImplicit false

/-!
# Literals among other text

A scanner takes a literal off the front of a text. Which one it takes does not depend on what
stands behind the literal, as long as that does not go on as a number does.
-/

namespace Countersign.Json

/-- What the scanner takes off the front of a text, it takes off whatever follows. -/
structure Frontal {α : Type} (scan : List Char → Option (α × List Char)) : Prop where
  suffix : ∀ {text value rest}, scan text = some (value, rest) → rest <:+ text
  transfer : ∀ {text value left rest rest'}, scan (text ++ rest) = some (value, left ++ rest) →
    Apart rest' → scan (text ++ rest') = some (value, left ++ rest')

namespace Frontal

variable {α : Type} {scan : List Char → Option (α × List Char)} {text rest : List Char} {value : α}

/-- A whole text that is taken off is taken off in front of any other. -/
theorem behind (frontal : Frontal scan) (whole : scan text = some (value, []))
    (apart : Apart rest) : scan (text ++ rest) = some (value, rest) := by
  have alone : scan (text ++ []) = some (value, [] ++ []) := by rwa [List.append_nil]
  exact frontal.transfer alone apart

/-- What is taken off is a text that could stand alone. -/
theorem taken (frontal : Frontal scan) (found : scan text = some (value, rest)) :
    ∃ body, text = body ++ rest ∧ scan body = some (value, []) := by
  obtain ⟨body, rfl⟩ := frontal.suffix found
  have alone : scan (body ++ []) = some (value, [] ++ []) := frontal.transfer found apart_nil
  rw [List.append_nil] at alone
  exact ⟨body, rfl, alone⟩

end Frontal

namespace Numeral

theorem digits_eq_some_iff {text row rest : List Char} :
    digits text = some (row, rest) ↔
      text = row ++ rest ∧ row ≠ [] ∧ (∀ c ∈ row, c.isDigit = true) ∧
        ∀ c ∈ rest.head?, c.isDigit = false := by
  constructor
  · intro found
    unfold digits at found
    split at found
    · cases found
    · next nonempty =>
      cases found
      refine ⟨List.takeWhile_append_dropWhile.symm, nonempty, ?_, ?_⟩
      · intro c among
        exact List.all_eq_true.mp List.all_takeWhile c among
      · intro c first
        have := List.head?_dropWhile_not Char.isDigit text
        rw [first] at this
        simpa using this
  · rintro ⟨rfl, nonempty, all, ends⟩
    exact digits_append nonempty all ends

theorem frontal_digits : Frontal digits where
  suffix found := by
    obtain ⟨rfl, -⟩ := digits_eq_some_iff.mp found
    exact List.suffix_append _ _
  transfer {text row left rest rest'} found apart := by
    obtain ⟨same, nonempty, all, ends⟩ := digits_eq_some_iff.mp found
    rw [← List.append_assoc, List.append_cancel_right_eq] at same
    subst same
    rw [List.append_assoc]
    refine digits_append nonempty all ?_
    cases left with
    | nil =>
      intro c first
      exact (apart c first).1
    | cons d left => exact ends

theorem frontal_scanWhole : Frontal scanWhole where
  suffix {text row rest} found := by
    rw [scanWhole] at found
    split at found
    · cases found
    · exact frontal_digits.suffix found
  transfer {text row left rest rest'} found apart := by
    rw [scanWhole] at found
    split at found
    · cases found
    · next several =>
      rw [scanWhole, frontal_digits.transfer found apart]
      split
      · next read =>
        cases read
        exact (several _ _ _ found).elim
      · rfl

theorem marked_or_not (marks text : List Char) :
    (∃ mark ∈ marks, ∃ tail, text = mark :: tail) ∨ ∀ c ∈ text.head?, c ∉ marks := by
  cases text with
  | nil => exact .inr (by simp)
  | cons c tail =>
    by_cases mark : c ∈ marks
    · exact .inl ⟨c, mark, tail, rfl⟩
    · exact .inr (by simpa using mark)

/-- A part that is there only behind a mark is taken off as what stands behind the mark is. No
text that stands apart begins with a mark. -/
theorem frontal_optional {α : Type} {scan inner : List Char → Option (α × List Char)} {missing : α}
    (marks : List Char) (frontal : Frontal inner)
    (behind : ∀ mark ∈ marks, ∀ text, scan (mark :: text) = inner text)
    (otherwise : ∀ text : List Char, (∀ c ∈ text.head?, c ∉ marks) →
      scan text = some (missing, text))
    (joined : ∀ text, Apart text → ∀ c ∈ text.head?, c ∉ marks) : Frontal scan where
  suffix {text value rest} found := by
    rcases marked_or_not marks text with ⟨mark, among, tail, rfl⟩ | unmarked
    · rw [behind mark among] at found
      exact (frontal.suffix found).trans (List.suffix_cons _ _)
    · rw [otherwise text unmarked] at found
      cases found
      exact List.suffix_rfl
  transfer {text value left rest rest'} found apart := by
    cases text with
    | nil =>
      rcases marked_or_not marks rest with ⟨mark, among, tail, rfl⟩ | unmarked
      · -- more would be left than there was behind the mark
        rw [List.nil_append, behind mark among] at found
        have short := (frontal.suffix found).length_le
        rw [List.length_append, List.length_cons] at short
        omega
      · rw [List.nil_append, otherwise rest unmarked, Option.some.injEq, Prod.mk.injEq] at found
        rw [List.nil_append, otherwise rest' (joined rest' apart), ← found.1,
          List.self_eq_append_left.mp found.2, List.nil_append]
    | cons c text =>
      rcases marked_or_not marks (c :: text) with ⟨mark, among, tail, same⟩ | unmarked
      · cases same
        rw [List.cons_append, behind c among] at found ⊢
        exact frontal.transfer found apart
      · rw [otherwise (c :: text ++ rest) unmarked, Option.some.injEq, Prod.mk.injEq,
          List.append_cancel_right_eq] at found
        rw [otherwise (c :: text ++ rest') unmarked, found.1, found.2]

theorem frontal_scanFraction : Frontal scanFraction := by
  apply frontal_optional ['.'] frontal_digits
  · simp [scanFraction]
  · intro text unmarked
    unfold scanFraction
    split
    · simp at unmarked
    · rfl
  · intro text apart c first
    simpa using (apart c first).2.1

/-- What two scanners take off one after the other is taken off whatever follows. -/
theorem frontal_sequence {α β γ : Type} {scan : List Char → Option (γ × List Char)}
    {first : List Char → Option (α × List Char)} {second : List Char → Option (β × List Char)}
    (one : Frontal first) (two : Frontal second) (join : α → β → γ)
    (steps : ∀ text, scan text = (first text).bind fun a =>
      (second a.2).map fun b => (join a.1 b.1, b.2)) : Frontal scan where
  suffix {text value rest} found := by
    rw [steps, Option.bind_eq_some_iff] at found
    obtain ⟨⟨a, middle⟩, front, back⟩ := found
    obtain ⟨⟨b, behind⟩, second', same⟩ := Option.map_eq_some_iff.mp back
    cases same
    exact (two.suffix second').trans (one.suffix front)
  transfer {text value left rest rest'} found apart := by
    rw [steps, Option.bind_eq_some_iff] at found
    obtain ⟨⟨a, middle⟩, front, back⟩ := found
    obtain ⟨⟨b, behind⟩, second', same⟩ := Option.map_eq_some_iff.mp back
    simp only [Prod.mk.injEq] at same
    obtain ⟨rfl, rfl⟩ := same
    obtain ⟨taken, rfl⟩ := two.suffix second'
    rw [← List.append_assoc] at front second'
    rw [steps, one.transfer front apart, Option.bind_some, two.transfer second' apart]
    rfl

theorem scanSign_suffix (text : List Char) : (scanSign text).2 <:+ text := by
  unfold scanSign
  split
  · exact List.suffix_cons _ _
  · exact List.suffix_cons _ _
  · exact List.suffix_rfl

theorem scanSign_append {c : Char} {text : List Char} (rest : List Char) :
    scanSign (c :: text ++ rest) =
      ((scanSign (c :: text)).1, (scanSign (c :: text)).2 ++ rest) := by
  by_cases minus : c = '-'
  · subst minus
    rfl
  · by_cases plus : c = '+'
    · subst plus
      rfl
    · simp [scanSign, minus, plus]

theorem scanPower_eq_some_iff {text rest : List Char} {power : Option Int} :
    scanPower text = some (power, rest) ↔
      ∃ row, digits (scanSign text).2 = some (row, rest) ∧
        power = some (if (scanSign text).1 then -(Nat.ofDigitChars 10 row 0 : Int)
          else Nat.ofDigitChars 10 row 0) := by
  unfold scanPower
  cases scanSign text with
  | mk negative tail =>
    dsimp only
    cases digits tail with
    | none => simp
    | some taken =>
      constructor
      · intro found
        cases found
        exact ⟨taken.1, rfl, rfl⟩
      · rintro ⟨row, same, rfl⟩
        cases same
        rfl

theorem frontal_scanPower : Frontal scanPower where
  suffix {text value rest} found := by
    obtain ⟨row, found, -⟩ := scanPower_eq_some_iff.mp found
    exact (frontal_digits.suffix found).trans (scanSign_suffix text)
  transfer {text value left rest rest'} found apart := by
    obtain ⟨row, found, same⟩ := scanPower_eq_some_iff.mp found
    cases text with
    | nil =>
      -- digits are taken off the rest, of which then not all is left
      obtain ⟨split, nonempty, -⟩ := digits_eq_some_iff.mp found
      have short := (scanSign_suffix rest).length_le
      have positive := List.length_pos_iff.mpr nonempty
      have lengths := congrArg List.length split
      simp only [List.nil_append, List.length_append] at lengths
      omega
    | cons c text =>
      rw [scanSign_append] at found same
      rw [scanPower_eq_some_iff, scanSign_append]
      exact ⟨row, frontal_digits.transfer found apart, same⟩

theorem frontal_scanExponent : Frontal scanExponent := by
  apply frontal_optional ['e', 'E'] frontal_scanPower
  · simp [scanExponent]
  · intro text unmarked
    unfold scanExponent
    split
    · simp at unmarked
    · simp at unmarked
    · rfl
  · intro text apart c first
    simpa using (apart c first).2.2

theorem scanUnsigned_eq (negative : Bool) (text : List Char) :
    scanUnsigned negative text =
      (scanWhole text).bind fun whole =>
        (scanFraction whole.2).bind fun fraction =>
          (scanExponent fraction.2).map fun exponent =>
            (⟨negative, whole.1, fraction.1, exponent.1⟩, exponent.2) := by
  unfold scanUnsigned
  cases scanWhole text with
  | none => rfl
  | some whole =>
    dsimp only [Option.bind_some]
    cases scanFraction whole.2 with
    | none => rfl
    | some fraction =>
      dsimp only [Option.bind_some]
      cases scanExponent fraction.2 <;> rfl

theorem frontal_scanUnsigned (negative : Bool) : Frontal (scanUnsigned negative) := by
  have fractional : Frontal fun text => (scanWhole text).bind fun whole =>
      (scanFraction whole.2).map fun fraction => ((whole.1, fraction.1), fraction.2) :=
    frontal_sequence frontal_scanWhole frontal_scanFraction Prod.mk fun _ => rfl
  apply frontal_sequence fractional frontal_scanExponent
    fun digits exponent => (⟨negative, digits.1, digits.2, exponent⟩ : Numeral)
  intro text
  rw [scanUnsigned_eq, Option.bind_assoc]
  refine Option.bind_congr fun whole _ => ?_
  rw [Option.bind_map]
  rfl

/-- A number has a digit at least, so the text behind it is shorter. -/
theorem length_scanUnsigned {negative : Bool} {text rest : List Char} {numeral : Numeral}
    (found : scanUnsigned negative text = some (numeral, rest)) : rest.length < text.length := by
  rw [scanUnsigned_eq, Option.bind_eq_some_iff] at found
  obtain ⟨whole, front, found⟩ := found
  obtain ⟨fraction, middle, found⟩ := Option.bind_eq_some_iff.mp found
  obtain ⟨exponent, back, same⟩ := Option.map_eq_some_iff.mp found
  have behind : rest <:+ whole.2 := by
    cases same
    exact (frontal_scanExponent.suffix back).trans (frontal_scanFraction.suffix middle)
  have taken : whole.2.length < text.length := by
    rw [scanWhole] at front
    split at front
    · cases front
    · obtain ⟨rfl, nonempty, -⟩ := digits_eq_some_iff.mp front
      have positive := List.length_pos_iff.mpr nonempty
      rw [List.length_append]
      omega
  exact Nat.lt_of_le_of_lt behind.length_le taken

theorem scan_cons {c : Char} (unsigned : c ≠ '-') (text : List Char) :
    scan (c :: text) = scanUnsigned false (c :: text) := by
  simp [scan, unsigned]

theorem frontal_scan : Frontal scan where
  suffix {text value rest} found := by
    unfold scan at found
    split at found
    · exact ((frontal_scanUnsigned true).suffix found).trans (List.suffix_cons _ _)
    · exact (frontal_scanUnsigned false).suffix found
  transfer {text value left rest rest'} found apart := by
    cases text with
    | nil =>
      -- a number is taken off the rest, of which then not all is left
      unfold scan at found
      split at found
      · next tail same =>
        have short := length_scanUnsigned found
        rw [List.nil_append] at same
        rw [same, List.length_append, List.length_cons] at short
        omega
      · have short := length_scanUnsigned found
        rw [List.length_append, List.nil_append] at short
        omega
    | cons c text =>
      by_cases minus : c = '-'
      · subst minus
        exact (frontal_scanUnsigned true).transfer found apart
      · rw [List.cons_append, scan_cons minus, ← List.cons_append] at found ⊢
        exact (frontal_scanUnsigned false).transfer found apart

theorem scan_head {text rest : List Char} {numeral : Numeral}
    (found : scan text = some (numeral, rest)) :
    ∃ c tail, text = c :: tail ∧ (c = '-' ∨ c.isDigit = true) := by
  unfold scan at found
  split at found
  · exact ⟨_, _, rfl, .inl rfl⟩
  · rw [scanUnsigned_eq, Option.bind_eq_some_iff] at found
    obtain ⟨whole, front, -⟩ := found
    rw [scanWhole] at front
    split at front
    · cases front
    · obtain ⟨rfl, nonempty, all, -⟩ := digits_eq_some_iff.mp front
      obtain ⟨c, row, same⟩ := List.exists_cons_of_ne_nil nonempty
      refine ⟨c, row ++ whole.2, by rw [same, List.cons_append], .inr ?_⟩
      exact all c (by simp [same])

end Numeral

namespace Part

/-- A string literal ends with its closing quote, whatever follows. -/
theorem scan_eq_some {text rest : List Char} {parts : List Part}
    (found : scan text = some (parts, rest)) :
    ∃ body, text = body ++ rest ∧ parts.length < body.length ∧
      ∀ more, scan (body ++ more) = some (parts, more) := by
  fun_induction scan text generalizing parts rest with
  | case1 => cases found
  | case2 tail =>
    cases found
    exact ⟨['"'], rfl, by simp, fun _ => rfl⟩
  | case3 a b c d tail u parts' rest' scanned unit ih =>
    cases found
    obtain ⟨body, rfl, short, scans⟩ := ih scanned
    refine ⟨'\\' :: 'u' :: a :: b :: c :: d :: body, rfl, ?_, ?_⟩
    · simp only [List.length_cons]
      omega
    · intro more
      simp only [List.cons_append, scan, unit, scans]
  | case4 => cases found
  | case5 escape tail notUnit c parts' rest' scanned short ih =>
    cases found
    obtain ⟨body, rfl, shorter, scans⟩ := ih scanned
    refine ⟨'\\' :: escape :: body, rfl, ?_, ?_⟩
    · simp only [List.length_cons]
      omega
    · intro more
      have letter : escape ≠ 'u' := by
        rintro rfl
        cases short
      rw [List.cons_append, List.cons_append, scan]
      · simp only [short, scans]
      · intro a b c d tail same
        cases same
        contradiction
  | case6 => cases found
  | case7 => cases found
  | case8 c tail notQuote notUnit notShort visible parts' rest' scanned ih =>
    cases found
    obtain ⟨body, rfl, shorter, scans⟩ := ih scanned
    refine ⟨c :: body, rfl, ?_, ?_⟩
    · simp only [List.length_cons]
      omega
    · intro more
      rw [List.cons_append, scan, if_neg visible, scans]
      · exact notQuote
      · intro a b c d tail same
        exact fun _ => visible (.inl same)
      · intro escape tail same
        exact fun _ => visible (.inl same)
  | case9 => cases found

end Part

end Countersign.Json
