import Phrasebook.Proofs.Number.Decoding
import Phrasebook.Proofs.Number.Quotient
import Phrasebook.Proofs.Number.Rounding

/-!
# The sign of a written number

No number is written as a negative zero, except for amounts of money: their sign is that of the
amount, and the digits are those of the rounded amount. `NumberToken.sign_written` says this for
every format with a sign.
-/

namespace Phrasebook

namespace Decimal

def isNonzeroDigit (c : Char) : Bool :=
  c.isDigit && c != '0'

/-- A minus sign stands in the text exactly if the number is negative and one of its digits is not
zero. -/
def SignFits (negative : Prop) (number text : List Char) : Prop :=
  '-' ∈ text ↔ negative ∧ number.any isNonzeroDigit = true

instance {negative : Prop} [Decidable negative] {number text : List Char} :
    Decidable (SignFits negative number text) :=
  inferInstanceAs (Decidable (_ ↔ _))

theorem SignFits.append {negative : Prop} {text back : List Char} (h : SignFits negative text text)
    (hminus : '-' ∉ back) (hdigits : back.any isNonzeroDigit = false) :
    SignFits negative (text ++ back) (text ++ back) := by
  unfold SignFits at *
  rw [List.mem_append, or_iff_left hminus, h, List.any_append, hdigits, Bool.or_false]

theorem SignFits.congr {p q : Prop} {number text : List Char} (h : SignFits p number text)
    (hpq : number.any isNonzeroDigit = true → (p ↔ q)) : SignFits q number text := by
  unfold SignFits at *
  rw [h]
  exact and_congr_left hpq

theorem isNonzeroDigit_eq (c : Char) : isNonzeroDigit c = ('1' ≤ c && c ≤ '9') := by
  by_cases hc : c.isDigit = true
  · rw [isNonzeroDigit, hc, Bool.true_and, Bool.eq_iff_iff, bne_iff_ne, ← isDigit_ne_zero_iff hc]
    simp
  · rw [isNonzeroDigit, Bool.eq_false_of_not_eq_true hc, Bool.false_and, eq_comm,
      ← Bool.not_eq_true]
    intro hrange
    obtain ⟨hlow, hhigh⟩ : '1' ≤ c ∧ c ≤ '9' := by simpa using hrange
    apply hc
    have hone : 49 ≤ c.toNat := hlow
    have hnine : c.toNat ≤ 57 := hhigh
    simp only [Char.isDigit, Bool.and_eq_true, decide_eq_true_eq, ge_iff_le, UInt32.le_iff_toNat_le]
    exact ⟨show 48 ≤ c.toNat by omega, hnine⟩

theorem Fixed.isNonzero_eq (f : Fixed) : f.isNonzero = f.digits.any isNonzeroDigit := by
  rw [funext isNonzeroDigit_eq]
  rfl

theorem any_zeros (zeros : Nat) : (List.replicate zeros '0').any isNonzeroDigit = false := by
  rw [List.any_eq_false]
  intro c hc
  rw [(List.mem_replicate.1 hc).2]
  decide

theorem isNonzeroDigit_of_isDigit {c : Char} (hc : c.isDigit = false) :
    isNonzeroDigit c = false := by
  rw [isNonzeroDigit, hc, Bool.false_and]

end Decimal

open Decimal

namespace Quantity

variable {x : Float} {negative : Bool} {m : Nat} {e : Int} {q : Rat}

theorem minus_notMem_digits (x : Quantity) (places : Nat) : '-' ∉ (x.digits places).digits := by
  cases x with
  | exact q => exact notMem_of_isDigit (Fixed.hasPlaces_ofRat _ places).isDigit (by decide)
  | infinite negative => exact show '-' ∉ ['i', 'n', 'f'] by decide
  | nan => exact show '-' ∉ ['N', 'a', 'N'] by decide

theorem isNegative_exact : (exact q).isNegative = true ↔ q < 0 :=
  decide_eq_true_iff

theorem isNegative_exact_div {unit : Nat} (hunit : 0 < unit) :
    (exact (q / unit)).isNegative = true ↔ q < 0 := by
  have hpos : (0 : Rat) < unit := Nat.cast_pos.2 hunit
  rw [isNegative_exact, div_lt_iff₀ hpos, zero_mul]

theorem isNegative_abs (x : Quantity) : x.abs.isNegative = false := by
  cases x with
  | exact q => exact decide_eq_false (not_lt.2 Rat.abs_nonneg)
  | infinite negative => rfl
  | nan => rfl

theorem isNegative_finite (hx : Binary64.ofFloat x = .finite negative m e) :
    (ofFloat x).isNegative = true ↔ negative = true ∧ 0 < m := by
  have hpos : 0 < Binary64.magnitude m e ↔ 0 < m := by
    have htwo : ∀ k, 0 < Nat.pow 2 k := fun k => Nat.pow_pos (by decide)
    rw [Binary64.magnitude, Binary64.fraction, Rat.mkRat_pos_iff _ (htwo _).ne', Int.natCast_pos]
    exact Nat.mul_pos_iff_of_pos_right (htwo _)
  have hnonneg := magnitude_nonneg m e
  rw [ofFloat_finite hx, isNegative_exact, ← hpos]
  cases negative <;> simp [hnonneg]

theorem isNegative_div {y : Float} (hy : Binary64.isPositive y.toModel.unpack = true)
    (hx : Binary64.ofFloat x = .finite negative m e) {places : Nat}
    (hdigits : ((ofFloat (x / y)).digits places).isNonzero = true) :
    (ofFloat (x / y)).isNegative = true ↔ (ofFloat x).isNegative = true := by
  cases hq : Binary64.ofFloat (x / y) with
  | finite negative' m' e' =>
    have hm' : m' ≠ 0 := by
      rintro rfl
      rw [digits_ofFloat hq, Binary64.magnitude, Binary64.fraction, Nat.zero_mul, Int.natCast_zero,
        Rat.zero_mkRat, Fixed.isNonzero_ofRat_zero] at hdigits
      cases hdigits
    have hm : m ≠ 0 := by
      rintro rfl
      rw [Binary64.ofFloat_div_zero hy hx] at hq
      exact hm' (Binary64.finite.inj hq).2.1.symm
    rw [isNegative_finite hq, isNegative_finite hx, Binary64.negative_div hy hx hq]
    exact and_congr_right fun _ => iff_of_true (Nat.pos_of_ne_zero hm') (Nat.pos_of_ne_zero hm)
  | infinite negative' =>
    rw [ofFloat, hq] at hdigits
    cases hdigits
  | nan =>
    rw [ofFloat, hq] at hdigits
    cases hdigits

end Quantity

namespace NumberStyle

variable {s : NumberStyle} {g d : Char}

theorem Distinct.any_groupDigits (h : s.Distinct g d) (ds : List Char) :
    (s.groupDigits ds).any isNonzeroDigit = ds.any isNonzeroDigit := by
  have hgroup := isNonzeroDigit_of_isDigit h.isDigit_group
  induction ds with
  | nil => rfl
  | cons c ds ih =>
    rw [groupDigits_cons, List.any_append, ih, h.group]
    split <;> simp [hgroup]

theorem any_trimZeros (fraction : List Char) :
    (trimZeros fraction).any isNonzeroDigit = fraction.any isNonzeroDigit := by
  obtain ⟨zeros, hzeros⟩ := exists_zeros fraction
  conv_rhs => rw [hzeros, List.any_append, any_zeros, Bool.or_false]

/-- `write` looks at the digits of `f`, and may write less of its fraction as long as only zeros are
missing. -/
theorem Distinct.any_write (h : s.Distinct g d) (negative : Bool) (f : Fixed) {fraction : List Char}
    (hany : fraction.any isNonzeroDigit = f.fraction.any isNonzeroDigit) :
    (s.write negative f fraction).any isNonzeroDigit = f.isNonzero := by
  have hsign : ∀ b, (minus b).any isNonzeroDigit = false := by decide
  have hback : (if fraction = [] then [] else d :: fraction).any isNonzeroDigit =
      f.fraction.any isNonzeroDigit := by
    rw [← hany]
    split
    · rename_i hnil
      rw [hnil]
    · rw [List.any_cons, isNonzeroDigit_of_isDigit h.isDigit_decimal, Bool.false_or]
  rw [h.write_eq, List.any_append, List.any_append, hsign, Bool.false_or, h.any_groupDigits, hback,
    Fixed.isNonzero_eq, Fixed.digits, List.any_append]

theorem Distinct.minus_mem_write (h : s.Distinct g d) (negative : Bool) {f : Fixed}
    (hf : '-' ∉ f.digits) {fraction : List Char} (hfraction : ∀ c ∈ fraction, c ∈ f.fraction) :
    '-' ∈ s.write negative f fraction ↔ negative = true ∧ f.isNonzero = true := by
  have hwhole : '-' ∉ s.groupDigits f.whole := by
    intro hmem
    rcases mem_groupDigits hmem with hmem | hmem
    · exact hf (List.mem_append_left _ hmem)
    · rw [h.group, List.mem_singleton] at hmem
      exact h.group_ne_minus hmem.symm
  have hback : '-' ∉ if fraction = [] then [] else d :: fraction :=
    notMem_back h.decimal_ne_minus.symm fun hmem => hf (List.mem_append_right _ (hfraction _ hmem))
  rw [h.write_eq, List.mem_append, List.mem_append, or_iff_left hback, or_iff_left hwhole,
    ← Bool.and_eq_true]
  cases negative && f.isNonzero <;> decide

theorem Distinct.signFits_write (h : s.Distinct g d) (negative : Bool) {f : Fixed}
    (hf : '-' ∉ f.digits) {fraction : List Char} (hfraction : ∀ c ∈ fraction, c ∈ f.fraction)
    (hany : fraction.any isNonzeroDigit = f.fraction.any isNonzeroDigit) :
    let text := s.write negative f fraction
    text.any isNonzeroDigit = f.isNonzero ∧ SignFits (negative = true) text text := by
  intro text
  have hdigits : text.any isNonzeroDigit = f.isNonzero := h.any_write negative f hany
  refine ⟨hdigits, ?_⟩
  rw [SignFits, hdigits]
  exact h.minus_mem_write negative hf hfraction

theorem Distinct.signFits_fixed (h : s.Distinct g d) (places : Nat) (x : Quantity) :
    let text := s.fixed places x
    text.any isNonzeroDigit = (x.digits places).isNonzero ∧
      SignFits (x.isNegative = true) text text :=
  h.signFits_write _ (x.minus_notMem_digits places) (fun _ hc => hc) rfl

theorem Distinct.signFits_trimmed (h : s.Distinct g d) (places : Nat) (x : Quantity) :
    let text := s.trimmed places x
    text.any isNonzeroDigit = (x.digits places).isNonzero ∧
      SignFits (x.isNegative = true) text text :=
  h.signFits_write _ (x.minus_notMem_digits places) (fun _ hc => mem_of_mem_trimZeros hc)
    (any_trimZeros _)

theorem Distinct.signFits_compactWith (h : s.Distinct g d) (quotient : Nat → Quantity)
    (x : Quantity) :
    let text := s.compactWith quotient x
    let scaled := quotient (compactUnit x).1
    ∃ places, text.any isNonzeroDigit = (scaled.digits places).isNonzero ∧
      SignFits (scaled.isNegative = true) text text := by
  have hletter : '-' ∉ (compactUnit x).2 ∧ (compactUnit x).2.any isNonzeroDigit = false := by
    unfold compactUnit
    split_ifs <;> decide
  intro text scaled
  obtain ⟨places, htext⟩ : ∃ places, text = s.trimmed places scaled ++ (compactUnit x).2 := ⟨_, rfl⟩
  obtain ⟨hdigits, hfits⟩ := h.signFits_trimmed places scaled
  rw [htext, List.any_append, hletter.2, Bool.or_false]
  exact ⟨places, hdigits, hfits.append hletter.1 hletter.2⟩

/-- Dividing in floating point makes no minus sign where dividing exactly makes none. -/
theorem Distinct.signFits_compact (h : s.Distinct g d) {x : Float} {negative : Bool} {m : Nat}
    {e : Int} (hx : Binary64.ofFloat x = .finite negative m e) :
    SignFits ((Quantity.ofFloat x).isNegative = true) (s.compact x) (s.compact x) := by
  have hunit : ∀ y, Binary64.isPositive
      (Float.ofScientific (compactUnit y).1 false 0).toModel.unpack = true := by
    intro y
    unfold compactUnit
    split_ifs <;> decide +kernel
  obtain ⟨places, hdigits, hfits⟩ := h.signFits_compactWith
    (fun unit => Quantity.ofFloat (x / Float.ofScientific unit false 0)) (Quantity.ofFloat x)
  refine hfits.congr fun hnonzero => ?_
  exact Quantity.isNegative_div (hunit _) hx (hdigits.symm.trans hnonzero)

theorem Distinct.signFits_compactWith_exact (h : s.Distinct g d) (v : Rat) :
    let text := s.compactWith (fun unit => .exact (v / unit)) (.exact v)
    SignFits (v < 0) text text := by
  have hunit : ∀ y, 0 < (compactUnit y).1 := by
    intro y
    unfold compactUnit
    split_ifs <;> decide
  obtain ⟨-, -, hfits⟩ := h.signFits_compactWith (fun unit => .exact (v / unit)) (.exact v)
  exact hfits.congr fun _ => Quantity.isNegative_exact_div (hunit _)

theorem Distinct.signFits_percent (h : s.Distinct g d) (x : Quantity) :
    SignFits (x.isNegative = true) (s.percent x) (s.percent x) := by
  unfold percent
  rw [List.append_assoc]
  refine (h.signFits_fixed 2 x).2.append ?_ ?_ <;> cases s.symbolAfter <;> decide

/-! ### Amounts of money -/

theorem eq_minus_of_toUpper {c : Char} (h : c.toUpper = '-') : c = '-' := by
  unfold Char.toUpper at h
  split at h
  · rename_i hlower
    have hlow : 97 ≤ c.val.toNat := hlower.1
    have hhigh : c.val.toNat ≤ 122 := hlower.2
    have hupper := congrArg (fun b : Char => b.val.toNat) h
    dsimp only at hupper
    rw [UInt32.toNat_add, show ('A'.val - 'a'.val).toNat = 4294967264 by decide,
      show '-'.val.toNat = 45 by decide] at hupper
    omega
  · exact h

theorem minus_notMem_currencySymbol {code : List Char} (h : '-' ∉ code) :
    '-' ∉ (currencySymbol (code.map Char.toUpper)).1 := by
  have hcode : '-' ∉ code.map Char.toUpper := by
    intro hmem
    obtain ⟨c, hc, hupper⟩ := List.mem_map.1 hmem
    exact h (eq_minus_of_toUpper hupper ▸ hc)
  unfold currencySymbol
  split_ifs <;> first | decide | exact hcode

/-- The number is written without its sign, between what is written of the currency. -/
theorem currency_eq (s : NumberStyle) (code : List Char) (x : Quantity) :
    let symbol := currencySymbol (code.map Char.toUpper)
    ∃ front back,
      s.currency code x = minus x.isNegative ++ front ++ s.fixed symbol.2 x.abs ++ back ∧
        ∀ c ∈ front ++ back, c ∈ symbol.1 ∨ c = noBreakSpace := by
  intro symbol
  unfold currency
  dsimp only
  split
  · exact ⟨[], noBreakSpace :: symbol.1, by simp [minus, symbol], by simp [or_comm]⟩
  · split
    · exact ⟨symbol.1 ++ [noBreakSpace], [], by simp [minus, symbol], by simp⟩
    · exact ⟨symbol.1, [], by simp [minus, symbol], by simp +contextual⟩

/-- An amount has the sign that it has before it is rounded. -/
theorem Distinct.signFits_currency (h : s.Distinct g d) {code : List Char} (hcode : '-' ∉ code)
    (v : Rat) :
    let places := (currencySymbol (code.map Char.toUpper)).2
    let number := s.fixed places (.exact v.abs)
    let text := s.currency code (.exact v)
    number <:+: text ∧ ('-' ∈ text ↔ v < 0) ∧
      (number.any isNonzeroDigit = true ↔ 1 / 2 < v.abs * 10 ^ places) ∧
      (SignFits (v < 0) number text ↔ ¬(v < 0 ∧ v.abs * 10 ^ places ≤ 1 / 2)) := by
  intro places number text
  obtain ⟨front, back, htext, hsymbol⟩ :
      ∃ front back, text = minus (Quantity.exact v).isNegative ++ front ++ number ++ back ∧ _ :=
    s.currency_eq code (.exact v)
  obtain ⟨hdigits, hunsigned⟩ := h.signFits_fixed places (.exact v.abs)
  have hnonzero : number.any isNonzeroDigit = true ↔ 1 / 2 < v.abs * 10 ^ places := by
    rw [hdigits, Quantity.digits, Rat.abs_of_nonneg Rat.abs_nonneg]
    exact Fixed.isNonzero_ofRat_iff Rat.abs_nonneg places
  have hnumber : '-' ∉ number := fun hmem =>
    Bool.eq_false_iff.1 (Quantity.isNegative_abs (.exact v)) (hunsigned.1 hmem).1
  have hsides : '-' ∉ front ++ back := by
    intro hmem
    rcases hsymbol _ hmem with hc | hc
    · exact minus_notMem_currencySymbol hcode hc
    · exact absurd hc (by decide)
  have hsign : '-' ∈ minus (Quantity.exact v).isNegative ↔ v < 0 := by
    rw [← Quantity.isNegative_exact]
    cases (Quantity.exact v).isNegative <;> decide
  rw [List.mem_append, not_or] at hsides
  have hminus : '-' ∈ text ↔ v < 0 := by
    rw [htext, List.mem_append, List.mem_append, List.mem_append, or_iff_left hsides.2,
      or_iff_left hnumber, or_iff_left hsides.1, hsign]
  refine ⟨⟨_, back, htext.symm⟩, hminus, hnonzero, ?_⟩
  rw [SignFits, hminus, hnonzero, not_and, not_le]
  exact ⟨fun hiff hv => (hiff.1 hv).2, fun himp => ⟨fun hv => ⟨hv, himp hv⟩, And.left⟩⟩

end NumberStyle

namespace NumberToken

theorem decimal_eq_none_iff {s : NumberStyle} {options : Option (List Char)} {x : Quantity} :
    decimal s options x = none ↔
      ∃ places, options.bind places? = some places ∧ 65535 < places := by
  unfold decimal placesLimit
  cases options.bind places? with
  | none => simp
  | some places => simp

theorem write_eq_none_iff {s : NumberStyle} {t : NumberToken} {x : Float} :
    write s t x = none ↔ (t.format = "number".toList ∨ t.format = "decimal".toList) ∧
      ∃ places, (t.options.map (Text.trimBy Text.isBlank)).bind places? = some places ∧
        65535 < places := by
  unfold write
  dsimp only
  split
  · rename_i hformat
    rw [decimal_eq_none_iff, and_iff_right hformat]
  · rename_i hformat
    refine iff_of_false ?_ fun h => hformat h.1
    split_ifs <;> exact not_false

theorem written_cases {s : NumberStyle} {t : NumberToken} {x : Float} {text : List Char}
    (htext : write s t x = some text)
    (hformat : t.format ∈
      ["number".toList, "decimal".toList, "percent".toList, "compact".toList]) :
    (∃ places, text = s.fixed places (.ofFloat x)) ∨
      (∃ places, text = s.trimmed places (.ofFloat x)) ∨
      text = s.percent (.ofFloat x) ∨ text = s.compact x := by
  have hdecimal : ∀ options, decimal s options (.ofFloat x) = some text →
      (∃ places, text = s.fixed places (.ofFloat x)) ∨
        ∃ places, text = s.trimmed places (.ofFloat x) := by
    intro options h
    unfold decimal at h
    split at h
    · split at h
      · exact .inl ⟨_, (Option.some.inj h).symm⟩
      · cases h
    · exact .inr ⟨3, (Option.some.inj h).symm⟩
  unfold write at htext
  dsimp only at htext
  simp only [List.mem_cons, List.not_mem_nil, or_false] at hformat
  rcases hformat with hf | hf | hf | hf <;> rw [hf] at htext
  · exact (hdecimal _ htext).imp_right .inl
  · exact (hdecimal _ htext).imp_right .inl
  · exact .inr (.inr (.inl (Option.some.inj htext).symm))
  · exact .inr (.inr (.inr (Option.some.inj htext).symm))

/-- In the formats `number`, `decimal`, `percent` and `compact` a finite number is written with a
minus sign exactly if it is below zero and a digit other than zero is written. `compact` divides in
floating point, and it is the same if it divides exactly. Nothing is written only where more places
are asked for than can be.

An amount of money with a currency that has no minus sign of its own is written with one exactly if
it is below zero. This is the same for all amounts that are not below zero, and for those below zero
of which more than half of the last place is left; any other amount below zero is written as a
negative zero. -/
theorem sign_written (locale : String) {x : Float} {negative : Bool} {m : Nat} {e : Int}
    (hx : Binary64.ofFloat x = .finite negative m e) (t : NumberToken) :
    let s := NumberStyle.of locale
    let v := if negative then -Binary64.magnitude m e else Binary64.magnitude m e
    let options := t.options.map (Text.trimBy Text.isBlank)
    let code := options.getD "USD".toList
    let places := (NumberStyle.currencySymbol (code.map Char.toUpper)).2
    let amount := s.fixed places (.exact v.abs)
    let thousands := s.compactWith (fun unit => .exact (v / unit)) (.exact v)
    (write s t x = none ↔ (t.format = "number".toList ∨ t.format = "decimal".toList) ∧
      ∃ places, options.bind places? = some places ∧ 65535 < places) ∧
    (∀ text, write s t x = some text →
      t.format ∈ ["number".toList, "decimal".toList, "percent".toList, "compact".toList] →
        SignFits (v < 0) text text) ∧
    SignFits (v < 0) thousands thousands ∧
    (t.format = "currency".toList → '-' ∉ code → ∃ text, write s t x = some text ∧
      amount <:+: text ∧ ('-' ∈ text ↔ v < 0) ∧
      (amount.any isNonzeroDigit = true ↔ 1 / 2 < v.abs * 10 ^ places) ∧
      (SignFits (v < 0) amount text ↔ ¬(v < 0 ∧ v.abs * 10 ^ places ≤ 1 / 2))) := by
  intro s v options code places amount thousands
  obtain ⟨g, d, h⟩ := NumberStyle.exists_distinct locale
  have hq : Quantity.ofFloat x = .exact v := Quantity.ofFloat_finite hx
  have hv : (Quantity.ofFloat x).isNegative = true ↔ v < 0 := by
    rw [hq]
    exact Quantity.isNegative_exact
  refine ⟨write_eq_none_iff, ?_, h.signFits_compactWith_exact v, ?_⟩
  · intro text htext hformat
    have hfits : SignFits ((Quantity.ofFloat x).isNegative = true) text text := by
      rcases written_cases htext hformat with ⟨n, rfl⟩ | ⟨n, rfl⟩ | rfl | rfl
      · exact (h.signFits_fixed n _).2
      · exact (h.signFits_trimmed n _).2
      · exact h.signFits_percent _
      · exact h.signFits_compact hx
    exact hfits.congr fun _ => hv
  · intro hformat hcode
    refine ⟨s.currency code (.exact v), ?_, h.signFits_currency hcode v⟩
    rw [← hq]
    unfold write
    rw [hformat]
    rfl

/-- One and a half yen below zero are written as two. -/
theorem sign_written_yen :
    let x := -Float.ofScientific 15 true 1
    let v := -Binary64.magnitude 6755399441055744 (-52)
    let s := NumberStyle.of "en"
    let t : NumberToken := ⟨['n'], "currency".toList, some " jpy".toList⟩
    Binary64.ofFloat x = .finite true 6755399441055744 (-52) ∧
      write s t x = some "-¥2".toList ∧
      SignFits (v < 0) (s.fixed 0 (.exact v.abs)) "-¥2".toList := by
  intro x v s t
  have hx : Binary64.ofFloat x = .finite true 6755399441055744 (-52) := by decide +kernel
  have hwritten : write s t x = some "-¥2".toList := by decide +kernel
  obtain ⟨-, -, -, hcurrency⟩ := sign_written "en" hx t
  obtain ⟨text, htext, -, -, -, hfits⟩ := hcurrency rfl (by decide)
  obtain rfl : "-¥2".toList = text := Option.some.inj (hwritten.symm.trans htext)
  exact ⟨hx, hwritten, hfits.2 (by decide +kernel)⟩

/-- A tenth of a cent below zero is written as an amount below zero with no digits but zero. -/
theorem sign_written_mill :
    let x := -Float.ofScientific 1 true 3
    let vars : Vars := [("n", .float x)]
    let s := NumberStyle.of "en"
    formatTokens "en" vars "\x7bn|currency\x7d" = some "-$0.00" ∧
      formatTokens "en" vars "\x7bn|decimal:2\x7d" = some "0.00" ∧
      formatTokens "en" vars "\x7bn|percent\x7d" = some "0.00%" ∧
      ¬SignFits ((Quantity.ofFloat x).isNegative = true) (s.fixed 2 (Quantity.ofFloat x).abs)
        "-$0.00".toList := by
  decide +kernel

end NumberToken

end Phrasebook
