import Countersign.Proofs.Text.Hex
import Countersign.Request.Outcome

set_option autoImplicit false

/-!
# What an answer is taken for

A text that stands for 32 bytes is a hash, and one that stands for any other number of
bytes is a signature. Every other answer is kept as it is. So nothing of an answer is lost
but how its digits were written.
-/

namespace Countersign

namespace Hex

theorem writes_encode (bytes : List UInt8) : Writes (encode bytes) bytes := by
  refine ⟨bytes.flatMap digitsOf, .inr ?_, ?_⟩
  · simp [encode]
  · rw [Spells, ← map_digitChar_halves, List.map_map]
    apply List.map_congr_left
    intro n membership
    exact Digits.toLower_digitChar (halves_lt bytes n membership)

theorem exists_writes_iff {text : String} :
    (∃ bytes, Writes text bytes) ↔
      ∃ digits, Holds text digits ∧ digits.length % 2 = 0 ∧ ∀ c ∈ digits, c ∈ Digits.alphabet := by
  constructor
  · rintro ⟨bytes, digits, held, spelled⟩
    exact ⟨digits, held, exists_spells_iff.mp ⟨bytes, spelled⟩⟩
  · rintro ⟨digits, held, even⟩
    obtain ⟨bytes, spelled⟩ := exists_spells_iff.mpr even
    exact ⟨bytes, digits, held, spelled⟩

end Hex

namespace Outcome

variable {text : String}

theorem ofText_eq_transaction_iff {hash : Hash} :
    ofText text = .transaction hash ↔ Hex.Writes text hash.bytes := by
  rw [← Hex.ofHex_eq_ok_iff, ofText]
  split
  · next read => simp [read]
  · next failed =>
    split
    · simp [failed]
    · simp [failed]

theorem ofText_eq_signature_iff {bytes : List UInt8} :
    ofText text = .signature bytes ↔ Hex.Writes text bytes ∧ bytes.length ≠ 32 := by
  constructor
  · intro signature
    rw [ofText] at signature
    split at signature
    · cases signature
    · next failed =>
      split at signature
      · next read =>
        cases signature
        have written := Hex.decode_eq_ok_iff.mp read
        refine ⟨written, ?_⟩
        intro size
        have hash : FixedBytes.ofHex 32 text = .ok ⟨bytes, size⟩ :=
          Hex.ofHex_eq_ok_iff.mpr written
        rw [hash] at failed
        cases failed
      · cases signature
  · rintro ⟨written, size⟩
    have read := Hex.decode_eq_ok_iff.mpr written
    rw [ofText]
    split
    · next hash found =>
      have same := Hex.decode_eq_ok_iff.mpr (Hex.ofHex_eq_ok_iff.mp found)
      rw [read, Except.ok.injEq] at same
      exact absurd (same ▸ hash.length_eq) size
    · rw [read]

theorem ofText_eq_other_iff {kept : Json} :
    ofText text = .other kept ↔ kept = .str text ∧ ¬∃ bytes, Hex.Writes text bytes := by
  simp only [← Hex.decode_eq_ok_iff]
  rw [ofText]
  split
  · next hash found =>
    have read := Hex.decode_eq_ok_iff.mpr (Hex.ofHex_eq_ok_iff.mp found)
    simp [read]
  · split
    · next read => simp [read]
    · next failed => simp [failed, eq_comm]

theorem ofJson_eq_transaction_iff {value : Json} {hash : Hash} :
    ofJson value = .transaction hash ↔
      ∃ text, value = .str text ∧ Hex.Writes text hash.bytes := by
  cases value with
  | str text => simp [ofJson, ofText_eq_transaction_iff]
  | _ => simp [ofJson]

/-- The text that confirmations send and answers print is taken for its bytes again. An answer
is taken for bytes only if it is a text that stands for them; 32 of them are a hash. It is kept,
unchanged, exactly if it is no text or not an even number of digits behind at most one marker. -/
theorem ofJson_loses_nothing :
    (∀ bytes : List UInt8, ofJson (.str (Hex.encode bytes)) =
      if size : bytes.length = 32 then .transaction ⟨bytes, size⟩ else .signature bytes) ∧
    ∀ value : Json,
      (∀ hash, ofJson value = .transaction hash ↔
        ∃ text, value = .str text ∧ Hex.Writes text hash.bytes) ∧
      (∀ bytes, ofJson value = .signature bytes ↔
        ∃ text, value = .str text ∧ Hex.Writes text bytes ∧ bytes.length ≠ 32) ∧
      ∀ kept, ofJson value = .other kept ↔
        kept = value ∧ ¬∃ text digits, value = .str text ∧ Hex.Holds text digits ∧
          digits.length % 2 = 0 ∧ ∀ c ∈ digits, c ∈ Digits.alphabet := by
  constructor
  · intro bytes
    split
    · exact ofText_eq_transaction_iff.mpr (Hex.writes_encode bytes)
    · next size => exact ofText_eq_signature_iff.mpr ⟨Hex.writes_encode bytes, size⟩
  · intro value
    refine ⟨fun hash => ofJson_eq_transaction_iff, ?_, ?_⟩
    · intro bytes
      cases value with
      | str text => simp [ofJson, ofText_eq_signature_iff]
      | _ => simp [ofJson]
    · intro kept
      cases value with
      | str text => simp [ofJson, ofText_eq_other_iff, Hex.exists_writes_iff]
      | _ => simp [ofJson, eq_comm]

end Outcome

end Countersign
