import Countersign.Text.Utf8

set_option autoImplicit false

/-!
# Text survives its encoding

Every character is read back from the bytes that encode it, and the reading stands between
characters again behind them. So the lossy reading loses nothing of encoded text.
-/

namespace Countersign.Utf8

section Units

variable {b low high : UInt8} {bits : Nat} (rest : List UInt8)

theorem units_ascii (ascii : b < 0x80) :
    units .between (b :: rest) = some (Char.ofNat b.toNat) :: units .between rest := by
  simp [units, step, step.start, ascii]

theorem units_lead {owed : Owed} (lead : Owed.ofLead? b = some owed) :
    units .between (b :: rest) = units (.inside (leadBits b owed.count) owed) rest := by
  have beyond : ¬b < 0x80 := by
    intro ascii
    have none : Owed.ofLead? b = none := by
      rw [UInt8.lt_iff_toNat_lt] at ascii
      simp only [Owed.ofLead?, UInt8.le_iff_toNat_le, ← UInt8.toNat_inj, UInt8.reduceToNat]
        at ascii ⊢
      repeat rw [if_neg (by omega)]
    rw [none] at lead
    cases lead
  simp [units, step, step.start, beyond, lead]

theorem units_continued {n : Nat} (within : low ≤ b ∧ b ≤ high) :
    units (.inside bits ⟨n + 2, low, high⟩) (b :: rest) =
      units (.inside (bits * 64 + b.toNat % 64) ⟨n + 1, 0x80, 0xBF⟩) rest := by
  simp [units, step, within]

theorem units_completed (within : low ≤ b ∧ b ≤ high) :
    units (.inside bits ⟨1, low, high⟩) (b :: rest) =
      some (Char.ofNat (bits * 64 + b.toNat % 64)) :: units .between rest := by
  simp [units, step, within]

end Units

/-! ### Bytes by the bits they carry -/

theorem toNat_byte {n : Nat} (small : n < 256) : (UInt8.ofNat n).toNat = n := by
  rw [UInt8.toNat_ofNat']
  omega

theorem byte_lt {b : UInt8} {n : Nat} (small : n < 256) : UInt8.ofNat n < b ↔ n < b.toNat := by
  rw [UInt8.lt_iff_toNat_lt, toNat_byte small]

theorem le_byte {b : UInt8} {n : Nat} (small : n < 256) : b ≤ UInt8.ofNat n ↔ b.toNat ≤ n := by
  rw [UInt8.le_iff_toNat_le, toNat_byte small]

theorem byte_le {b : UInt8} {n : Nat} (small : n < 256) : UInt8.ofNat n ≤ b ↔ n ≤ b.toNat := by
  rw [UInt8.le_iff_toNat_le, toNat_byte small]

/-- A byte behind the leading one carries six bits. -/
theorem tail_within {m : Nat} (six : m < 64) :
    (0x80 : UInt8) ≤ UInt8.ofNat (m + 128) ∧ UInt8.ofNat (m + 128) ≤ 0xBF := by
  rw [le_byte (by omega), byte_le (by omega)]
  exact ⟨show 128 ≤ m + 128 by omega, show m + 128 ≤ 191 by omega⟩

theorem tail_bits {m : Nat} (six : m < 64) : (UInt8.ofNat (m + 128)).toNat % 64 = m := by
  rw [toNat_byte (by omega)]
  omega

theorem ofLead?_two {n : Nat} (long : 2 ≤ n) (five : n < 32) :
    Owed.ofLead? (UInt8.ofNat (n + 192)) = some ⟨1, 0x80, 0xBF⟩ := by
  simp only [Owed.ofLead?, UInt8.le_iff_toNat_le, toNat_byte (show n + 192 < 256 by omega),
    UInt8.reduceToNat]
  rw [if_pos (by omega)]

/-- The range of the second byte keeps out what two bytes would do for, and surrogates. -/
theorem ofLead?_three {n m : Nat} (four : n < 16) (six : m < 64) (long : n = 0 → 32 ≤ m)
    (scalar : n = 13 → m < 32) :
    ∃ low high, Owed.ofLead? (UInt8.ofNat (n + 224)) = some ⟨2, low, high⟩ ∧
      low ≤ UInt8.ofNat (m + 128) ∧ UInt8.ofNat (m + 128) ≤ high := by
  have within := tail_within six
  by_cases zero : n = 0
  · subst zero
    have above := long rfl
    exact ⟨0xA0, 0xBF, rfl, (le_byte (by omega)).mpr (show 160 ≤ m + 128 by omega), within.2⟩
  by_cases thirteen : n = 13
  · subst thirteen
    have below := scalar rfl
    exact ⟨0x80, 0x9F, rfl, within.1, (byte_le (by omega)).mpr (show m + 128 ≤ 159 by omega)⟩
  · refine ⟨0x80, 0xBF, ?_, within⟩
    simp only [Owed.ofLead?, UInt8.le_iff_toNat_le, ← UInt8.toNat_inj,
      toNat_byte (show n + 224 < 256 by omega), UInt8.reduceToNat]
    rw [if_neg (by omega), if_neg (by omega), if_neg (by omega), if_pos (by omega)]

/-- The range of the second byte keeps out what three bytes would do for, and what lies
beyond the last code point. -/
theorem ofLead?_four {n m : Nat} (few : n < 5) (six : m < 64) (long : n = 0 → 16 ≤ m)
    (scalar : n = 4 → m < 16) :
    ∃ low high, Owed.ofLead? (UInt8.ofNat (n + 240)) = some ⟨3, low, high⟩ ∧
      low ≤ UInt8.ofNat (m + 128) ∧ UInt8.ofNat (m + 128) ≤ high := by
  have within := tail_within six
  by_cases zero : n = 0
  · subst zero
    have above := long rfl
    exact ⟨0x90, 0xBF, rfl, (le_byte (by omega)).mpr (show 144 ≤ m + 128 by omega), within.2⟩
  by_cases last : n = 4
  · subst last
    have below := scalar rfl
    exact ⟨0x80, 0x8F, rfl, within.1, (byte_le (by omega)).mpr (show m + 128 ≤ 143 by omega)⟩
  · refine ⟨0x80, 0xBF, ?_, within⟩
    simp only [Owed.ofLead?, UInt8.le_iff_toNat_le, ← UInt8.toNat_inj,
      toNat_byte (show n + 240 < 256 by omega), UInt8.reduceToNat]
    rw [if_neg (by omega), if_neg (by omega), if_neg (by omega), if_neg (by omega),
      if_neg (by omega), if_pos (by omega)]

/-! ### Characters and texts -/

/-- A code point is no surrogate and not beyond the last one. -/
theorem scalar_toNat (c : Char) :
    c.toNat < 0xD800 ∨ 0xDFFF < c.toNat ∧ c.toNat < 0x110000 := c.valid

theorem units_utf8EncodeChar (c : Char) (rest : List UInt8) :
    units .between (String.utf8EncodeChar c ++ rest) = some c :: units .between rest := by
  have scalar := scalar_toNat c
  have whole : ∀ n, n = c.toNat → some (Char.ofNat n) = some c := by
    rintro n rfl
    rw [Char.ofNat_toNat]
  have six : ∀ n : Nat, n % 64 < 64 := fun n => Nat.mod_lt n (by decide)
  rw [String.utf8EncodeChar, ← Char.toNat]
  generalize c.toNat = v at *
  split
  · next one =>
    simp only [List.cons_append, List.nil_append]
    rw [units_ascii rest ((byte_lt (by omega)).mpr (show v < 128 by omega)), toNat_byte (by omega),
      whole v rfl]
  split
  · next one two =>
    simp only [List.cons_append, List.nil_append]
    have lead := @ofLead?_two (v / 64 % 32) (by omega) (by omega)
    rw [units_lead _ lead, units_completed _ (tail_within (six v)), tail_bits (six v), leadBits,
      toNat_byte (by omega), whole _ (by simp only [Nat.reduceShiftRight]; omega)]
  split
  · next one two three =>
    simp only [List.cons_append, List.nil_append]
    obtain ⟨low, high, lead, within⟩ := @ofLead?_three (v / 4096 % 16) (v / 64 % 64) (by omega)
      (six _) (by omega) (by omega)
    rw [units_lead _ lead, units_continued _ within, tail_bits (six _),
      units_completed _ (tail_within (six v)), tail_bits (six v), leadBits, toNat_byte (by omega),
      whole _ (by simp only [Nat.reduceShiftRight]; omega)]
  · next one two three =>
    simp only [List.cons_append, List.nil_append]
    obtain ⟨low, high, lead, within⟩ := @ofLead?_four (v / 262144 % 8) (v / 4096 % 64) (by omega)
      (six _) (by omega) (by omega)
    rw [units_lead _ lead, units_continued _ within, tail_bits (six _),
      units_continued _ (tail_within (six _)), tail_bits (six _),
      units_completed _ (tail_within (six v)), tail_bits (six v), leadBits, toNat_byte (by omega),
      whole _ (by simp only [Nat.reduceShiftRight]; omega)]

theorem units_encode (text : String) :
    units .between (encode text) = text.toList.map some := by
  rw [encode]
  induction text.toList with
  | nil => rfl
  | cons c chars ih => rw [List.flatMap_cons, units_utf8EncodeChar, ih, List.map_cons]

theorem decodeLossy_encode (text : String) : decodeLossy (encode text) = text := by
  simp [decodeLossy, units_encode, Function.comp_def]

end Countersign.Utf8
