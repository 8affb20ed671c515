import Countersign.Proofs.Text.Utf8
import Mathlib.Data.List.Lex

set_option autoImplicit false

/-!
# Texts are ordered as their bytes

A character with a smaller code point has the smaller bytes, whether it takes as many of
them or fewer. So names that ascend as texts ascend byte by byte too.
-/

namespace Countersign.Utf8

def Precedes (a b : String) : Prop := List.Lex (· < ·) (encode a) (encode b)

theorem Precedes.asymm {a b : String} (before : Precedes a b) : ¬Precedes b a :=
  List.lex_asymm UInt8.lt_asymm before

theorem lex_of_lead {n m : Nat} {x y : List UInt8} (small : m < 256) (below : n < m) :
    List.Lex (· < ·) (UInt8.ofNat n :: x) (UInt8.ofNat m :: y) := by
  apply List.Lex.rel
  rwa [byte_lt (by omega), toNat_byte small]

/-- The first bytes decide, or else they come from the same bits and the rest decides. -/
theorem lex_bytes {n m : Nat} (v w : Nat) {x y : List UInt8} (small : m < 256)
    (lead : n < m ∨ v = w ∧ n = m) (tails : v = w → List.Lex (· < ·) x y) :
    List.Lex (· < ·) (UInt8.ofNat n :: x) (UInt8.ofNat m :: y) := by
  rcases lead with below | ⟨same, rfl⟩
  · exact lex_of_lead small below
  · exact .cons (tails same)

/-- Larger bytes lead more of them; among characters of one size the first bytes that differ
carry the highest bits that do. -/
theorem lex_utf8EncodeChar {c d : Char} (less : c < d) (x y : List UInt8) :
    List.Lex (· < ·) (String.utf8EncodeChar c ++ x) (String.utf8EncodeChar d ++ y) := by
  have below : c.toNat < d.toNat := less
  have scalar := scalar_toNat d
  rw [String.utf8EncodeChar, String.utf8EncodeChar, ← Char.toNat, ← Char.toNat]
  generalize c.toNat = v at *
  generalize d.toNat = w at *
  split
  · repeat' split
    all_goals exact lex_of_lead (by omega) (by omega)
  split
  · rw [if_neg (by omega)]
    split
    · apply lex_bytes (v / 64) (w / 64) (by omega) (by omega)
      intro high
      exact lex_of_lead (by omega) (by omega)
    · split
      all_goals exact lex_of_lead (by omega) (by omega)
  split
  · rw [if_neg (by omega), if_neg (by omega)]
    split
    · apply lex_bytes (v / 4096) (w / 4096) (by omega) (by omega)
      intro high
      apply lex_bytes (v / 64) (w / 64) (by omega) (by omega)
      intro middle
      exact lex_of_lead (by omega) (by omega)
    · exact lex_of_lead (by omega) (by omega)
  · rw [if_neg (by omega), if_neg (by omega), if_neg (by omega)]
    apply lex_bytes (v / 262144) (w / 262144) (by omega) (by omega)
    intro high
    apply lex_bytes (v / 4096) (w / 4096) (by omega) (by omega)
    intro upper
    apply lex_bytes (v / 64) (w / 64) (by omega) (by omega)
    intro lower
    exact lex_of_lead (by omega) (by omega)

theorem lex_encoded {chars others : List Char} (less : List.Lex (· < ·) chars others) :
    List.Lex (· < ·) (chars.flatMap String.utf8EncodeChar)
      (others.flatMap String.utf8EncodeChar) := by
  induction less with
  | @nil c rest =>
    rw [List.flatMap_cons]
    cases row : String.utf8EncodeChar c with
    | nil => exact absurd row String.utf8EncodeChar_ne_nil
    | cons byte bytes => exact .nil
  | cons _ ih =>
    rw [List.flatMap_cons, List.flatMap_cons]
    exact List.Lex.append_left _ ih _
  | rel smaller =>
    rw [List.flatMap_cons, List.flatMap_cons]
    exact lex_utf8EncodeChar smaller _ _

theorem precedes_of_lt {a b : String} (less : a < b) : Precedes a b :=
  lex_encoded less

theorem precedes_iff {a b : String} : Precedes a b ↔ a < b := by
  refine ⟨fun before => ?_, precedes_of_lt⟩
  rcases Std.lt_trichotomy a b with less | rfl | less
  · exact less
  · exact absurd before before.asymm
  · exact absurd (precedes_of_lt less) before.asymm

end Countersign.Utf8
