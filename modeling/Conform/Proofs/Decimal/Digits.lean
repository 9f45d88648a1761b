import Conform.Decimal
import Mathlib.Data.List.TakeWhile
import Mathlib.Tactic.NormNum

/-!
# Digits written and read

A number that is written with a fixed width has that many digits and keeps its value.  A run of
digits of known length is read back whatever follows, and one of unknown length when no digit
follows.  The texts of literals hold digits and a few marks and no other character.
-/

namespace Conform.Decimal

/-! ## Writing -/

lemma isDigit_of_mem_padded {width n : Nat} {c : Char} (h : c ∈ padded width n) :
    c.isDigit = true := by
  rw [padded, List.mem_append] at h
  rcases h with hzero | hdigit
  · rw [List.eq_of_mem_replicate hzero]
    rfl
  · exact Nat.isDigit_of_mem_toDigits (by norm_num) (by norm_num) hdigit

/-- Zeros in front do not count. -/
lemma value_padded (width n : Nat) : value (padded width n) = n := by
  rw [padded, value, Nat.ofDigitChars_append, Nat.ofDigitChars_replicate_zero, Nat.mul_zero]
  exact Nat.ofDigitChars_toDigits (by norm_num) (by norm_num)

lemma length_padded {width n : Nat} (hwidth : 0 < width) (h : n < 10 ^ width) :
    (padded width n).length = width := by
  have hle : (Nat.toDigits 10 n).length ≤ width :=
    (Nat.length_toDigits_le_iff (by norm_num) hwidth).2 h
  rw [padded, List.length_append, List.length_replicate]
  omega

/-! ## Reading -/

lemma take?_append {digits : List Char} (h : ∀ c ∈ digits, c.isDigit = true)
    (rest : List Char) : take? digits.length (digits ++ rest) = some (digits, rest) := by
  induction digits with
  | nil => rfl
  | cons c digits ih =>
    obtain ⟨hc, hdigits⟩ := List.forall_mem_cons.1 h
    simp [take?, hc, ih hdigits]

lemma span_append {digits rest : List Char} (h : ∀ c ∈ digits, c.isDigit = true)
    (hrest : ∀ c ∈ rest.head?, c.isDigit = false) : span (digits ++ rest) = (digits, rest) := by
  have htake : rest.takeWhile Char.isDigit = [] ∧ rest.dropWhile Char.isDigit = rest := by
    cases rest with
    | nil => exact ⟨rfl, rfl⟩
    | cons c rest =>
      have hc : c.isDigit = false := hrest c rfl
      simp [hc]
  rw [span, List.takeWhile_append_of_pos h, List.dropWhile_append_of_pos h, htake.1, htake.2,
    List.append_nil]

/-! ## Characters of literals -/

/-- The characters other than digits that may stand in a literal. -/
def marks : List Char := ['+', '-', '.', 'e', 'E']

lemma mem_sign {text : List Char} {c : Char} (h : c ∈ text) : c ∈ marks ∨ c ∈ (sign text).2 := by
  unfold sign
  split
  · rcases List.mem_cons.1 h with rfl | hrest
    · exact .inl (by decide)
    · exact .inr hrest
  · rcases List.mem_cons.1 h with rfl | hrest
    · exact .inl (by decide)
    · exact .inr hrest
  · exact .inr h

lemma mem_span {text : List Char} {c : Char} (h : c ∈ text) :
    c.isDigit = true ∨ c ∈ (span text).2 := by
  have hsplit : text.takeWhile Char.isDigit ++ text.dropWhile Char.isDigit = text :=
    List.takeWhile_append_dropWhile
  rw [← hsplit, List.mem_append] at h
  exact h.imp_left List.mem_takeWhile_imp

lemma mem_pointed {text : List Char} {c : Char} (h : c ∈ text) :
    c.isDigit = true ∨ c ∈ marks ∨ c ∈ (Literal.pointed text).2 := by
  unfold Literal.pointed
  split
  · rcases List.mem_cons.1 h with rfl | hrest
    · exact .inr (.inl (by decide))
    · exact (mem_span hrest).imp_right .inr
  · exact .inr (.inr h)

lemma mem_of_integer? {text : List Char} {number : Int} (h : integer? text = some number)
    {c : Char} (hc : c ∈ text) : c.isDigit = true ∨ c ∈ marks := by
  rcases mem_sign hc with hmark | hdigit
  · exact .inr hmark
  · rw [integer?] at h
    dsimp only at h
    split at h
    · rename_i hdigits
      exact .inl (List.all_eq_true.1 hdigits.2 c hdigit)
    · cases h

lemma mem_of_exponent? {text : List Char} {exponent : Int}
    (h : Literal.exponent? text = some exponent) {c : Char} (hc : c ∈ text) :
    c.isDigit = true ∨ c ∈ marks := by
  unfold Literal.exponent? at h
  split at h
  · cases hc
  · rcases List.mem_cons.1 hc with rfl | hrest
    · exact .inr (by decide)
    · exact mem_of_integer? h hrest
  · rcases List.mem_cons.1 hc with rfl | hrest
    · exact .inr (by decide)
    · exact mem_of_integer? h hrest
  · cases h

/-- A literal is spelt with digits and marks only. -/
lemma mem_of_ofChars? {text : List Char} {literal : Literal}
    (h : Literal.ofChars? text = some literal) {c : Char} (hc : c ∈ text) :
    c.isDigit = true ∨ c ∈ marks := by
  rw [Literal.ofChars?] at h
  dsimp only at h
  split at h
  · cases h
  · obtain ⟨exponent, hexponent, -⟩ := Option.map_eq_some_iff.1 h
    rcases mem_sign hc with hmark | hunsigned
    · exact .inr hmark
    · rcases mem_span hunsigned with hdigit | hfraction
      · exact .inl hdigit
      · rcases mem_pointed hfraction with hdigit | hmark | hpower
        · exact .inl hdigit
        · exact .inr hmark
        · exact mem_of_exponent? hexponent hpower

end Conform.Decimal
