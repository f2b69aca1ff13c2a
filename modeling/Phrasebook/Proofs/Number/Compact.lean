import Mathlib.Data.List.Infix
import Mathlib.Tactic.NormNum
import Phrasebook.Proofs.Number.Decoding
import Phrasebook.Proofs.Number.Rounding

/-!
# The unit of a compact number

The unit is chosen by the size of a number, and the number is rounded when it has been divided by
the unit. So a number that is less than half below the next unit is written as a thousand of the
lower one, and every other number below 999.5 billion is written below a thousand:
`NumberStyle.compact_size`.
-/

namespace Phrasebook

namespace Decimal

theorem Fixed.value_nonneg (f : Fixed) : 0 ≤ f.value :=
  div_nonneg (Nat.cast_nonneg _) (by positivity)

/-- More than three digits are written in front of the point from a thousand on. -/
theorem Fixed.length_whole_ofRat (q : Rat) (places : Nat) :
    3 < (ofRat q places).whole.length ↔ 1000 ≤ (ofRat q places).value := by
  have hpos : (0 : Rat) < 10 ^ places := by positivity
  have hlength : (ofRat q places).whole.length ≤ 3 ↔
      roundHalfEven (q * (10 ^ places : Nat)) / 10 ^ places < 10 ^ 3 :=
    Nat.length_toDigits_le_iff (by decide) (by decide)
  rw [← not_le, hlength, not_lt, Nat.le_div_iff_mul_le (Nat.pow_pos (by decide)), value_ofRat,
    le_div_iff₀ hpos]
  norm_cast

theorem scaled_size_of_lt {r : Rat} (hr : 0 ≤ r) (hlt : r < 10) :
    let size := (Fixed.ofRat r 1).value
    (1 ≤ r → 1 ≤ size) ∧ size ≤ 10 := by
  intro size
  have hsize : size = _ := Fixed.value_ofRat r 1
  have hscaled : 0 ≤ r * (10 ^ 1 : Nat) := by positivity
  have hlow := lt_roundHalfEven_iff hscaled 9
  have hhigh := lt_roundHalfEven_iff hscaled 100
  generalize roundHalfEven (r * (10 ^ 1 : Nat)) = n at hsize hlow hhigh
  push_cast at hsize hlow hhigh
  have hn : (n : Rat) ≤ 100 := by
    rw [← not_lt]
    norm_cast
    rw [hhigh, not_or, not_and_or]
    exact ⟨by linarith, .inl (by linarith)⟩
  refine ⟨fun hone => ?_, by linarith⟩
  have hten : (10 : Rat) ≤ n := by
    norm_cast
    exact hlow.2 (.inl (by linarith))
  linarith

/-- At half below a thousand the size is already a thousand, since `999` is odd. -/
theorem scaled_size_of_le {r : Rat} (hr : 1 ≤ r) (hlt : r < 1000) :
    let size := (Fixed.ofRat r 0).value
    1 ≤ size ∧ size ≤ 1000 ∧ (1000 ≤ size ↔ 1999 / 2 ≤ r) := by
  intro size
  have hsize : size = _ := Fixed.value_ofRat r 0
  have hscaled : 0 ≤ r * (10 ^ 0 : Nat) := by positivity
  have hlow := lt_roundHalfEven_iff hscaled 0
  have hedge := lt_roundHalfEven_iff hscaled 999
  have hhigh := lt_roundHalfEven_iff hscaled 1000
  generalize roundHalfEven (r * (10 ^ 0 : Nat)) = n at hsize hlow hedge hhigh
  simp only [pow_zero, div_one] at hsize
  norm_num only [pow_zero, mul_one, and_false, or_false, and_true] at hlow hedge hhigh
  rw [hsize]
  refine ⟨?_, ?_, ?_⟩
  · norm_cast
    exact hlow.2 (by linarith)
  · rw [← not_lt]
    norm_cast
    rw [hhigh]
    linarith
  · have hcast : (1000 : Rat) ≤ n ↔ 999 < n := by norm_cast
    rw [hcast, hedge, le_iff_lt_or_eq]

theorem scaled_size {r : Rat} (hr : 0 ≤ r) (hlt : r < 1000) :
    let size := (Fixed.ofRat r (if r < 10 then 1 else 0)).value
    (1 ≤ r → 1 ≤ size) ∧ size ≤ 1000 ∧ (1000 ≤ size ↔ 1999 / 2 ≤ r) := by
  by_cases hten : r < 10
  · rw [if_pos hten]
    obtain ⟨hlow, hhigh⟩ := scaled_size_of_lt hr hten
    exact ⟨hlow, by linarith, iff_of_false (by linarith) (by linarith)⟩
  · rw [if_neg hten]
    obtain ⟨hlow, hrest⟩ := scaled_size_of_le (by linarith) hlt
    exact ⟨fun _ => hlow, hrest⟩

end Decimal

open Decimal

namespace NumberStyle

variable {s : NumberStyle} {g d : Char} {ds : List Char} {v : Rat}

/-! ### Group separators -/

theorem Distinct.group_mem_groupDigits (h : s.Distinct g d) (hds : ∀ c ∈ ds, c.isDigit = true) :
    g ∈ s.groupDigits ds ↔ 3 < ds.length := by
  by_cases hne : ds = []
  · simp [hne, groupDigits]
  obtain ⟨first, rest, hthrees, hwritten⟩ := s.exists_threes hne
  have hlength := hthrees.length_eq
  obtain ⟨hdigits, hpos, hle, -⟩ := hthrees
  rw [hwritten, h.group]
  cases rest with
  | nil =>
    obtain rfl : first = ds := by simpa using hdigits
    rw [List.intercalate_singleton]
    exact iff_of_false (notMem_of_isDigit hds h.isDigit_group) (by omega)
  | cons p ps =>
    rw [List.intercalate_cons_cons]
    rw [List.length_cons] at hlength
    exact iff_of_true (by simp) (by omega)

theorem Distinct.group_mem_trimmed (h : s.Distinct g d) (q : Rat) (places : Nat) :
    g ∈ s.trimmed places (.exact q) ↔ 1000 ≤ (Fixed.ofRat q.abs places).value := by
  have hlength := Fixed.length_whole_ofRat q.abs places
  have hf := Fixed.hasPlaces_ofRat q.abs places
  unfold trimmed Quantity.digits
  dsimp only
  generalize Fixed.ofRat q.abs places = f at hlength hf
  have hback : g ∉ if trimZeros f.fraction = [] then [] else d :: trimZeros f.fraction :=
    notMem_back h.ne.symm (notMem_of_isDigit (isDigit_of_mem_trimZeros hf) h.isDigit_group)
  rw [h.write_eq, List.mem_append, List.mem_append, or_iff_left hback,
    or_iff_right (notMem_minus h.group_ne_minus _), ← hlength]
  exact h.group_mem_groupDigits fun c hc => hf.isDigit c (List.mem_append_left _ hc)

theorem Distinct.abs_denoted_trimmed (h : s.Distinct g d) (q : Rat) (places : Nat) :
    (denoted (s.plain (s.trimmed places (.exact q)))).abs = (Fixed.ofRat q.abs places).value := by
  have hf := Fixed.hasPlaces_ofRat q.abs places
  have hdenoted := (h.denoted_write hf (Quantity.exact q).isNegative).2
  rw [show denoted (s.plain (s.trimmed places (.exact q))) = _ from hdenoted]
  split
  · rw [Rat.abs_neg, Rat.abs_of_nonneg (Fixed.value_nonneg _)]
  · exact Rat.abs_of_nonneg (Fixed.value_nonneg _)

/-! ### The unit -/

/-- Below the next unit, but so near to it that it is reached in rounding. -/
def CarriesOver (size : Rat) : Prop :=
  ∃ unit ∈ [1, 1000, 1000000], 1999 / 2 * unit ≤ size ∧ size < 1000 * unit

instance (size : Rat) : Decidable (CarriesOver size) :=
  inferInstanceAs (Decidable (∃ unit ∈ [1, 1000, 1000000], _))

/-- A number is less than a thousand of its unit, and is carried over from this unit or from none. -/
theorem compactUnit_spec (hv : v.abs < 999500000000) :
    let unit := (compactUnit (.exact v)).1
    0 < unit ∧ v.abs < 1000 * unit ∧ ((compactUnit (.exact v)).2 ≠ [] → unit ≤ v.abs) ∧
      (1999 / 2 * (unit : Rat) ≤ v.abs ↔ CarriesOver v.abs) := by
  have hnonneg : 0 ≤ v.abs := Rat.abs_nonneg
  have hreaches : ∀ bound : Nat, (Quantity.exact v).reaches bound = true ↔ (bound : Rat) ≤ v.abs :=
    fun bound => decide_eq_true_iff
  unfold compactUnit CarriesOver
  simp only [hreaches, List.mem_cons, List.not_mem_nil, or_false, exists_eq_or_imp, exists_eq_left]
  generalize v.abs = size at *
  push_cast
  -- billions cannot carry over, since there is no unit above them and the number has a bound
  split_ifs with hB hM hK <;> push_cast
  · refine ⟨by decide, by linarith, fun _ => hB, iff_of_false (by linarith) ?_⟩
    rintro (⟨-, h⟩ | ⟨-, h⟩ | ⟨-, h⟩) <;> linarith
  · refine ⟨by decide, by linarith, fun _ => hM, fun h => .inr (.inr ⟨h, by linarith⟩), ?_⟩
    rintro (⟨-, h⟩ | ⟨-, h⟩ | ⟨h, -⟩) <;> linarith
  · refine ⟨by decide, by linarith, fun _ => hK, fun h => .inr (.inl ⟨h, by linarith⟩), ?_⟩
    rintro (⟨-, h⟩ | ⟨h, -⟩ | ⟨h, -⟩) <;> linarith
  · refine ⟨by decide, by linarith, fun h => absurd rfl h, fun h => .inl ⟨h, by linarith⟩, ?_⟩
    rintro (⟨h, -⟩ | ⟨h, -⟩ | ⟨h, -⟩) <;> linarith

theorem abs_div_unit (v : Rat) (unit : Nat) : (v / unit).abs = v.abs / unit := by
  have hunit : (0 : Rat) ≤ unit := Nat.cast_nonneg _
  rcases le_total 0 v with hv | hv
  · rw [Rat.abs_of_nonneg hv, Rat.abs_of_nonneg (div_nonneg hv hunit)]
  · rw [Rat.abs_of_nonpos hv, Rat.abs_of_nonpos (div_nonpos_of_nonpos_of_nonneg hv hunit), neg_div]

theorem compactWith_congr {quotient quotient' : Nat → Quantity} {x : Quantity}
    (h : quotient (compactUnit x).1 = quotient' (compactUnit x).1) (s : NumberStyle) :
    s.compactWith quotient x = s.compactWith quotient' x := by
  unfold compactWith
  dsimp only
  rw [h]

/-- A number below 999.5 billion is divided by its unit and rounded, to one place if the quotient is
below ten. What is written in front of the letter of a unit is one at least. It is below a thousand
and without a group separator, unless the number carries over: then it is a thousand, with the
separator in it. A floating-point number is written in the same way where the division is exact. -/
theorem compact_size (locale : String) {v : Rat} (hv : v.abs < 999500000000) :
    let s := of locale
    let unit := (compactUnit (.exact v)).1
    let letter := (compactUnit (.exact v)).2
    let places := if v.abs / unit < 10 then 1 else 0
    let number := s.trimmed places (.exact (v / unit))
    let size := (denoted (s.plain number)).abs
    s.compactWith (fun unit => .exact (v / unit)) (.exact v) = number ++ letter ∧
      (∀ x, Quantity.ofFloat x = .exact v →
        Quantity.ofFloat (x / Float.ofScientific unit false 0) = .exact (v / unit) →
          s.compact x = number ++ letter) ∧
      size = (roundHalfEven (v.abs / unit * (10 ^ places : Nat)) : Rat) / 10 ^ places ∧
      (letter ≠ [] → 1 ≤ size) ∧ (¬CarriesOver v.abs → size < 1000 ∧ ¬s.group <:+: number) ∧
      (CarriesOver v.abs → size = 1000 ∧ s.group <:+: number) := by
  intro s unit letter places number size
  obtain ⟨g, d, h⟩ := exists_distinct locale
  obtain ⟨hunit, hlt, hletter, hcarries⟩ :
      0 < unit ∧ v.abs < 1000 * unit ∧ (letter ≠ [] → unit ≤ v.abs) ∧
        (1999 / 2 * (unit : Rat) ≤ v.abs ↔ CarriesOver v.abs) := compactUnit_spec hv
  have hpos : (0 : Rat) < unit := Nat.cast_pos.2 hunit
  have habs : (v / unit).abs = v.abs / unit := abs_div_unit v unit
  have hsize : size = (Fixed.ofRat (v.abs / unit) places).value := by
    rw [← habs]
    exact h.abs_denoted_trimmed _ _
  have hgroup : s.group <:+: number ↔ 1000 ≤ size := by
    rw [h.group, List.singleton_infix_iff, hsize, ← habs]
    exact h.group_mem_trimmed _ _
  obtain ⟨hlow, hhigh, hedge⟩ :
      (1 ≤ v.abs / unit → 1 ≤ size) ∧ size ≤ 1000 ∧ (1000 ≤ size ↔ 1999 / 2 ≤ v.abs / unit) := by
    rw [hsize]
    exact scaled_size (div_nonneg Rat.abs_nonneg hpos.le) ((div_lt_iff₀ hpos).2 hlt)
  rw [le_div_iff₀ hpos, hcarries] at hedge
  have htext : s.compactWith (fun unit => .exact (v / unit)) (.exact v) = number ++ letter := by
    show s.trimmed (if decide ((v / unit).abs < (10 : Nat)) then 1 else 0) _ ++ letter = _
    rw [habs]
    simp only [decide_eq_true_eq]
    rfl
  refine ⟨htext, ?_, ?_, ?_, ?_, ?_⟩
  · intro x hx hquotient
    rw [compact, hx, ← htext]
    exact compactWith_congr hquotient s
  · rw [hsize, Fixed.value_ofRat]
  · intro hne
    rw [le_div_iff₀ hpos, one_mul] at hlow
    exact hlow (hletter hne)
  · intro hbelow
    rw [hgroup, hedge]
    exact ⟨not_le.1 (mt hedge.1 hbelow), hbelow⟩
  · intro hcarried
    rw [hgroup, hedge]
    exact ⟨le_antisymm hhigh (hedge.2 hcarried), hcarried⟩

/-- One and a half million are written in millions. -/
theorem compact_size_million :
    let s := of "de"
    let v : Rat := 1500000
    let x := Float.ofScientific 1500000 false 0
    v.abs < 999500000000 ∧ s.compact x = "1,5M".toList ∧
      1 ≤ (denoted (s.plain "1,5".toList)).abs ∧ (denoted (s.plain "1,5".toList)).abs < 1000 ∧
      ¬s.group <:+: "1,5".toList := by
  intro s v x
  have hv : v.abs < 999500000000 := by decide +kernel
  have hunit : compactUnit (.exact v) = (1000000, ['M']) := by decide +kernel
  have hplaces : (if v.abs / (1000000 : Nat) < 10 then 1 else 0) = 1 := by decide +kernel
  have hnumber : s.trimmed 1 (.exact (v / (1000000 : Nat))) = "1,5".toList := by decide +kernel
  obtain ⟨-, htext, -, hlow, hbelow, -⟩ := compact_size "de" hv
  rw [hunit, hplaces, hnumber] at hlow hbelow
  obtain ⟨hthousand, hseparator⟩ := hbelow (by decide +kernel)
  refine ⟨hv, ?_, hlow (by decide), hthousand, hseparator⟩
  rw [htext x (by decide +kernel) (by decide +kernel), hunit, hplaces, hnumber]
  rfl

/-- One less than a million is written as a thousand thousands. -/
theorem compact_size_carried :
    let s := of "en"
    let v : Rat := 999999
    NumberToken.formatTokens "en" [("n", .int 999999)] "\x7bn|compact\x7d" = some "1,000K" ∧
      v.abs < 999500000000 ∧
      s.compactWith (fun unit => .exact (v / unit)) (.exact v) = "1,000K".toList ∧
      denoted (s.plain "1,000".toList) = 1000 ∧ s.group <:+: "1,000".toList := by
  decide +kernel

end NumberStyle

end Phrasebook
