import Mathlib.Data.List.DropRight
import Mathlib.Data.Rat.Lemmas
import Mathlib.Tactic.FieldSimp
import Mathlib.Tactic.Ring
import Phrasebook.Number.Localized

/-!
# Numbers with a fixed count of places

`Decimal.Fixed.ofRat` writes a rounded number with exactly the asked places: `digits_ofRat` says what
its digits are and `value_ofRat` what they denote. Zeros at the end of the fraction add nothing to
that: `value_dropZeros`.
-/

namespace Phrasebook

namespace Decimal

variable {a b cs : List Char} {c : Char} {n width places : Nat}

/-! ### Runs of digits -/

theorem digitsValue_append (a b : List Char) :
    digitsValue (a ++ b) = 10 ^ b.length * digitsValue a + digitsValue b := by
  show Nat.ofDigitChars 10 (a ++ b) 0 = _
  rw [Nat.ofDigitChars_append, Nat.ofDigitChars_eq_ofDigitChars_zero]
  rfl

theorem digitsValue_natDigits (n : Nat) : digitsValue (natDigits n) = n :=
  Nat.ofDigitChars_ten_toDigits

theorem digitsValue_zeros (k : Nat) : digitsValue (List.replicate k '0') = 0 :=
  Nat.ofDigitChars_replicate_zero

theorem natDigits_ne_nil (n : Nat) : natDigits n ≠ [] :=
  Nat.toDigits_ne_nil

theorem digitsValue_paddedDigits (width n : Nat) : digitsValue (paddedDigits width n) = n := by
  unfold paddedDigits
  dsimp only
  rw [digitsValue_append, digitsValue_zeros, digitsValue_natDigits, Nat.mul_zero, Nat.zero_add]

theorem length_paddedDigits (hw : 0 < width) (h : n < 10 ^ width) :
    (paddedDigits width n).length = width := by
  have hle : (natDigits n).length ≤ width := (Nat.length_toDigits_le_iff (by decide) hw).2 h
  unfold paddedDigits
  dsimp only
  rw [List.length_append, List.length_replicate, Nat.sub_add_cancel hle]

theorem isDigit_of_mem_paddedDigits (h : c ∈ paddedDigits width n) : c.isDigit = true := by
  rcases List.mem_append.1 h with h | h
  · rw [(List.mem_replicate.1 h).2]
    rfl
  · exact isDigit_of_mem_natDigits h

theorem eq_zero_of_mem_paddedDigits (h : c ∈ paddedDigits width 0) : c = '0' := by
  rcases List.mem_append.1 h with h | h
  · exact (List.mem_replicate.1 h).2
  · exact List.mem_singleton.1 h

/-- Every digit but zero is between one and nine. -/
theorem isDigit_ne_zero_iff (h : c.isDigit = true) : ('1' ≤ c ∧ c ≤ '9') ↔ c ≠ '0' := by
  have hnat : c.toNat = 48 ↔ c = '0' := by
    rw [← Char.toNat_inj]
    rfl
  have hone : '1' ≤ c ↔ 49 ≤ c.toNat := Iff.rfl
  have hnine : c ≤ '9' ↔ c.toNat ≤ 57 := Iff.rfl
  have hdigit : 48 ≤ c.toNat ∧ c.toNat ≤ 57 := by
    simpa [Char.isDigit, UInt32.le_iff_toNat_le] using h
  rw [hone, hnine, ne_eq, ← hnat]
  omega

/-! ### Whole and fraction -/

namespace Fixed

/-- All characters that are written. -/
def digits (f : Fixed) : List Char :=
  f.whole ++ f.fraction

/-- The digits with a point between whole and fraction, if there is a fraction. -/
def text (f : Fixed) : List Char :=
  f.whole ++ if f.fraction = [] then [] else '.' :: f.fraction

/-- The number that the digits denote. -/
def value (f : Fixed) : Rat :=
  (digitsValue f.digits : Rat) / 10 ^ f.fraction.length

/-- Digits throughout, at least one of them in front of the point and `places` behind it. -/
structure HasPlaces (f : Fixed) (places : Nat) : Prop where
  whole_ne_nil : f.whole ≠ []
  length_fraction : f.fraction.length = places
  isDigit : ∀ c ∈ f.digits, c.isDigit = true

theorem HasPlaces.fraction_eq_nil_iff {f : Fixed} (h : f.HasPlaces places) :
    f.fraction = [] ↔ places = 0 := by
  rw [← h.length_fraction, List.length_eq_zero_iff]

theorem HasPlaces.isNonzero_iff {f : Fixed} (h : f.HasPlaces places) :
    f.isNonzero = true ↔ ∃ c ∈ f.digits, c ≠ '0' := by
  unfold isNonzero
  rw [List.any_eq_true]
  refine exists_congr fun c => and_congr_right fun hc => ?_
  rw [← isDigit_ne_zero_iff (h.isDigit c hc)]
  simp

theorem HasPlaces.isNonzero_eq {f : Fixed} (h : f.HasPlaces places) :
    f.isNonzero = f.digits.any (· != '0') := by
  rw [Bool.eq_iff_iff, h.isNonzero_iff, List.any_eq_true]
  simp only [bne_iff_ne]

theorem fraction_ofRat (q : Rat) (places : Nat) :
    (ofRat q places).fraction = if places = 0 then [] else
      paddedDigits places (roundHalfEven (q * (10 ^ places : Nat)) % 10 ^ places) := rfl

theorem whole_ofRat (q : Rat) (places : Nat) :
    (ofRat q places).whole = natDigits (roundHalfEven (q * (10 ^ places : Nat)) / 10 ^ places) := rfl

theorem hasPlaces_ofRat (q : Rat) (places : Nat) : (ofRat q places).HasPlaces places where
  whole_ne_nil := natDigits_ne_nil _
  length_fraction := by
    rw [fraction_ofRat]
    split
    · rename_i hplaces
      rw [hplaces]
      rfl
    · rename_i hplaces
      exact length_paddedDigits (Nat.pos_of_ne_zero hplaces) (Nat.mod_lt _ (Nat.pow_pos (by decide)))
  isDigit := by
    intro c hc
    rcases List.mem_append.1 hc with hc | hc
    · exact isDigit_of_mem_natDigits hc
    · rw [fraction_ofRat] at hc
      split at hc
      · simp at hc
      · exact isDigit_of_mem_paddedDigits hc

theorem digitsValue_ofRat (q : Rat) (places : Nat) :
    digitsValue (ofRat q places).digits = roundHalfEven (q * (10 ^ places : Nat)) := by
  have hlength := (hasPlaces_ofRat q places).length_fraction
  have hfraction : digitsValue (ofRat q places).fraction =
      roundHalfEven (q * (10 ^ places : Nat)) % 10 ^ places := by
    rw [fraction_ofRat]
    split
    · rename_i hplaces
      rw [hplaces, Nat.pow_zero, Nat.mod_one]
      rfl
    · exact digitsValue_paddedDigits _ _
  rw [digits, digitsValue_append, hlength, hfraction, whole_ofRat, digitsValue_natDigits]
  exact Nat.div_add_mod _ _

/-- The digits denote the number rounded to the nearest with so many places. -/
theorem value_ofRat (q : Rat) (places : Nat) :
    (ofRat q places).value = (roundHalfEven (q * (10 ^ places : Nat)) : Rat) / 10 ^ places := by
  rw [value, digitsValue_ofRat, (hasPlaces_ofRat q places).length_fraction]

/-- Where every digit is zero, the number is. -/
theorem HasPlaces.value_eq_zero {f : Fixed} (h : f.HasPlaces places) (hz : f.isNonzero = false) :
    f.value = 0 := by
  have hzero : ∀ c ∈ f.digits, c = '0' := by
    rw [← Bool.not_eq_true, h.isNonzero_iff] at hz
    exact fun c hc => by_contra fun hne => hz ⟨c, hc, hne⟩
  rw [value, List.eq_replicate_of_mem hzero, digitsValue_zeros, Nat.cast_zero, zero_div]

/-- Zero has no other digits. -/
theorem isNonzero_ofRat_zero (places : Nat) : (ofRat 0 places).isNonzero = false := by
  have hround : roundHalfEven (0 * (10 ^ places : Nat)) = 0 := by
    rw [Rat.zero_mul]
    rfl
  rw [← Bool.not_eq_true, (hasPlaces_ofRat 0 places).isNonzero_iff]
  rintro ⟨c, hc, hne⟩
  refine hne ?_
  rcases List.mem_append.1 hc with hc | hc
  · rw [whole_ofRat, hround, Nat.zero_div] at hc
    exact List.mem_singleton.1 hc
  · rw [fraction_ofRat, hround, Nat.zero_mod] at hc
    split at hc
    · simp at hc
    · exact eq_zero_of_mem_paddedDigits hc

/-- Zeros at the end of a fraction do not count. -/
theorem value_dropZeros (whole kept : List Char) (zeros : Nat) :
    value ⟨whole, kept ++ List.replicate zeros '0'⟩ = value ⟨whole, kept⟩ := by
  unfold value digits
  dsimp only
  rw [← List.append_assoc, digitsValue_append, digitsValue_zeros, List.length_append,
    List.length_replicate, Nat.add_zero, pow_add]
  push_cast
  field_simp

end Fixed

end Decimal

end Phrasebook
