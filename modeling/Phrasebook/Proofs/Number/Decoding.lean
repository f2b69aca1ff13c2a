import Phrasebook.Plugin.NumberFormat
import Phrasebook.Proofs.Key.Written
import Phrasebook.Proofs.Number.Separators
import Phrasebook.Service

/-!
# Reading localized numbers back

Taken apart at its separators, a localized number is the decimal that it was made of.
`NumberToken.decimal_decoded` says this of every finite number that is written with a fixed count of
places, and of what is left of it without the zeros at its end.
-/

namespace Phrasebook

namespace Decimal

/-- The number that a text with a point denotes; behind a minus sign it is negative. -/
def denoted (text : List Char) : Rat :=
  let (negative, rest) := spanSign text
  let f : Fixed := match Text.cutFirst '.' rest with
    | some (whole, fraction) => ⟨whole, fraction⟩
    | none => ⟨rest, []⟩
  if negative then -f.value else f.value

theorem Fixed.HasPlaces.spanSign_minus {f : Fixed} {places : Nat} (h : f.HasPlaces places)
    (negative : Bool) (rest : List Char) :
    spanSign (minus negative ++ (f.whole ++ rest)) = (negative, f.whole ++ rest) := by
  cases negative with
  | true => rfl
  | false =>
    obtain ⟨c, cs, hwhole⟩ := List.exists_cons_of_ne_nil h.whole_ne_nil
    have hc : c.isDigit = true := h.isDigit c (by simp [Fixed.digits, hwhole])
    show spanSign (f.whole ++ rest) = _
    rw [hwhole, List.cons_append]
    unfold spanSign
    split
    · rename_i heq
      exact absurd (List.cons.inj heq).1 (ne_of_isDigit hc (by decide))
    · rename_i heq
      exact absurd (List.cons.inj heq).1 (ne_of_isDigit hc (by decide))
    · rfl

theorem denoted_text {f : Fixed} {places : Nat} (h : f.HasPlaces places) (negative : Bool) :
    denoted (minus negative ++ f.text) = if negative then -f.value else f.value := by
  have hwhole : '.' ∉ f.whole :=
    notMem_of_isDigit (fun c hc => h.isDigit c (List.mem_append_left _ hc)) (by decide)
  unfold denoted Fixed.text
  rw [h.spanSign_minus]
  dsimp only
  by_cases hfraction : f.fraction = []
  · rw [if_pos hfraction, List.append_nil, Text.cutFirst_eq_none.2 hwhole, ← hfraction]
  · rw [if_neg hfraction, Text.cutFirst_append _ hwhole]

end Decimal

/-! ### Finite numbers -/

namespace Quantity

variable {x : Float} {negative : Bool} {m : Nat} {e : Int}

theorem magnitude_nonneg (m : Nat) (e : Int) : 0 ≤ Binary64.magnitude m e := by
  unfold Binary64.magnitude
  rw [Rat.mkRat_eq_divInt]
  exact Rat.divInt_nonneg (Int.natCast_nonneg _) (Int.natCast_nonneg _)

theorem ofFloat_finite (hx : Binary64.ofFloat x = .finite negative m e) :
    ofFloat x = .exact (if negative then -Binary64.magnitude m e else Binary64.magnitude m e) := by
  unfold ofFloat
  rw [hx]

theorem digits_ofFloat (hx : Binary64.ofFloat x = .finite negative m e) (places : Nat) :
    (ofFloat x).digits places = .ofRat (Binary64.magnitude m e) places := by
  have habs := Rat.abs_of_nonneg (magnitude_nonneg m e)
  rw [ofFloat_finite hx]
  cases negative with
  | true =>
    show Decimal.Fixed.ofRat (-Binary64.magnitude m e).abs places = _
    rw [Rat.abs_neg, habs]
  | false =>
    show Decimal.Fixed.ofRat (Binary64.magnitude m e).abs places = _
    rw [habs]

/-- A negative zero is not below zero, but no digit of it is written but zero. -/
theorem isNegative_ofFloat (hx : Binary64.ofFloat x = .finite negative m e) (places : Nat) :
    ((ofFloat x).isNegative && (Decimal.Fixed.ofRat (Binary64.magnitude m e) places).isNonzero) =
      (negative && (Decimal.Fixed.ofRat (Binary64.magnitude m e) places).isNonzero) := by
  have hnonneg := magnitude_nonneg m e
  rw [ofFloat_finite hx]
  generalize Binary64.magnitude m e = q at hnonneg
  rcases hnonneg.eq_or_lt with rfl | hpos
  · rw [Decimal.Fixed.isNonzero_ofRat_zero, Bool.and_false, Bool.and_false]
  · cases negative <;> simp [isNegative, hpos, hnonneg]

end Quantity

namespace NumberStyle

variable {s : NumberStyle} {g d : Char} {f : Decimal.Fixed} {places : Nat}

theorem fixed_ofFloat {x : Float} {negative : Bool} {m : Nat} {e : Int}
    (hx : Binary64.ofFloat x = .finite negative m e) (s : NumberStyle) (places : Nat) :
    let f := Decimal.Fixed.ofRat (Binary64.magnitude m e) places
    s.fixed places (.ofFloat x) = s.write negative f f.fraction ∧
      s.trimmed places (.ofFloat x) = s.write negative f (trimZeros f.fraction) := by
  intro f
  have hsign := Quantity.isNegative_ofFloat hx places
  unfold fixed trimmed write
  dsimp only
  rw [Quantity.digits_ofFloat hx, hsign]
  exact ⟨rfl, rfl⟩

/-! ### Written numbers -/

theorem Distinct.write_eq (h : s.Distinct g d) (negative : Bool) (f : Decimal.Fixed)
    (fraction : List Char) :
    s.write negative f fraction = Decimal.minus (negative && f.isNonzero) ++ s.groupDigits f.whole ++
      if fraction = [] then [] else d :: fraction := by
  unfold write Decimal.minus
  rw [h.decimal]
  cases fraction <;> rfl

/-- Of the characters behind the whole number only the decimal separator is not of the fraction. -/
theorem notMem_back {c : Char} (hc : c ≠ d) {fraction : List Char} (hfraction : c ∉ fraction) :
    c ∉ if fraction = [] then [] else d :: fraction := by
  split
  · exact List.not_mem_nil
  · rw [List.mem_cons, not_or]
    exact ⟨hc, hfraction⟩

theorem Distinct.decimal_notMem (h : s.Distinct g d) (hf : f.HasPlaces places) (negative : Bool) :
    d ∉ Decimal.minus negative ++ s.groupDigits f.whole := by
  intro hmem
  rcases List.mem_append.1 hmem with hmem | hmem
  · exact Decimal.notMem_minus h.decimal_ne_minus negative hmem
  · rcases mem_groupDigits hmem with hmem | hmem
    · exact Decimal.ne_of_isDigit (hf.isDigit d (List.mem_append_left _ hmem)) h.isDigit_decimal rfl
    · rw [h.group, List.mem_singleton] at hmem
      exact h.ne hmem

/-- Without its separators a number has the digits that it was made of. -/
theorem Distinct.plain_write (h : s.Distinct g d) (hf : f.HasPlaces places) (negative : Bool)
    {fraction : List Char} (hfraction : ∀ c ∈ fraction, c.isDigit = true) :
    s.plain (s.write negative f fraction) =
      Decimal.minus (negative && f.isNonzero) ++ (⟨f.whole, fraction⟩ : Decimal.Fixed).text := by
  have hwhole : ∀ c ∈ f.whole, c.isDigit = true := fun c hc =>
    hf.isDigit c (List.mem_append_left _ hc)
  have hback : s.plain (if fraction = [] then [] else d :: fraction) =
      if fraction = [] then [] else '.' :: fraction := by
    split
    · rfl
    · rw [← List.singleton_append, plain_append, h.plain_decimal, h.plain_digits hfraction]
      rfl
  rw [h.write_eq, plain_append, plain_append, h.plain_minus, h.plain_groupDigits hwhole, hback,
    List.append_assoc]
  rfl

/-- The zeros are left out behind the last decimal separator, and nothing is left out where there is
none. -/
theorem Distinct.write_trimZeros (h : s.Distinct g d) (hf : f.HasPlaces places) (negative : Bool) :
    s.write negative f (trimZeros f.fraction) =
      match Text.cutLast d (s.write negative f f.fraction) with
      | some (before, after) =>
        before ++ if trimZeros after = [] then [] else d :: trimZeros after
      | none => s.write negative f f.fraction := by
  have hfront := h.decimal_notMem hf (negative && f.isNonzero)
  have hback : d ∉ f.fraction := Decimal.notMem_of_isDigit
    (fun c hc => hf.isDigit c (List.mem_append_right _ hc)) h.isDigit_decimal
  rw [h.write_eq, h.write_eq]
  by_cases hfraction : f.fraction = []
  · rw [if_pos hfraction, List.append_nil, Text.cutLast_eq_none.2 hfront, hfraction]
    exact List.append_nil _
  · rw [if_neg hfraction, Text.cutLast_append _ hback]

theorem isDigit_of_mem_trimZeros (hf : f.HasPlaces places) :
    ∀ c ∈ trimZeros f.fraction, c.isDigit = true :=
  fun c hc => hf.isDigit c (List.mem_append_right _ (mem_of_mem_trimZeros hc))

/-- Neither a decimal separator nor a zero behind one is at the end. -/
theorem Distinct.getLast?_write_trimZeros (h : s.Distinct g d) (hf : f.HasPlaces places)
    (negative : Bool) :
    let text := s.write negative f (trimZeros f.fraction)
    text.getLast? ≠ some d ∧ (d ∈ text → text.getLast? ≠ some '0') := by
  intro text
  have hfront := h.decimal_notMem hf (negative && f.isNonzero)
  have htext : text = _ := h.write_eq negative f (trimZeros f.fraction)
  by_cases hkept : trimZeros f.fraction = []
  · rw [if_pos hkept, List.append_nil] at htext
    rw [htext]
    exact ⟨fun hlast => hfront (List.mem_of_getLast? hlast), fun hmem => absurd hmem hfront⟩
  · have hlast : text.getLast? = (trimZeros f.fraction).getLast? := by
      obtain ⟨c, hc⟩ := Option.ne_none_iff_exists'.1 (mt List.getLast?_eq_none_iff.1 hkept)
      rw [htext, if_neg hkept, List.getLast?_append, List.getLast?_cons, hc]
      rfl
    rw [hlast]
    refine ⟨fun hd => ?_, fun _ => getLast?_trimZeros _⟩
    exact Decimal.ne_of_isDigit (isDigit_of_mem_trimZeros hf d (List.mem_of_getLast? hd))
      h.isDigit_decimal rfl

/-- Leaving out the zeros does not change the number. -/
theorem Distinct.denoted_write (h : s.Distinct g d) (hf : f.HasPlaces places) (negative : Bool) :
    Decimal.denoted (s.plain (s.write negative f f.fraction)) =
        (if negative then -f.value else f.value) ∧
      Decimal.denoted (s.plain (s.write negative f (trimZeros f.fraction))) =
        if negative then -f.value else f.value := by
  have hfraction : ∀ c ∈ f.fraction, c.isDigit = true := fun c hc =>
    hf.isDigit c (List.mem_append_right _ hc)
  obtain ⟨zeros, hzeros⟩ := exists_zeros f.fraction
  have htrimmed : (⟨f.whole, trimZeros f.fraction⟩ : Decimal.Fixed).value = f.value := by
    rw [← Decimal.Fixed.value_dropZeros _ _ zeros, ← hzeros]
  have hkept : (⟨f.whole, trimZeros f.fraction⟩ : Decimal.Fixed).HasPlaces
      (trimZeros f.fraction).length :=
    ⟨hf.whole_ne_nil, rfl, fun c hc => (List.mem_append.1 hc).elim
      (fun hc => hf.isDigit c (List.mem_append_left _ hc)) (isDigit_of_mem_trimZeros hf c)⟩
  have hsign : (if (negative && f.isNonzero) = true then -f.value else f.value) =
      if negative then -f.value else f.value := by
    cases hz : f.isNonzero with
    | true => rw [Bool.and_true]
    | false => simp [hf.value_eq_zero hz]
  rw [h.plain_write hf negative hfraction, h.plain_write hf negative (isDigit_of_mem_trimZeros hf),
    Decimal.denoted_text hf, Decimal.denoted_text hkept, htrimmed, hsign]
  exact ⟨rfl, rfl⟩

end NumberStyle

namespace NumberToken

theorem decimal_of_places {options : Option (List Char)} {places : Nat}
    (h : options.bind places? = some places) (s : NumberStyle) (x : Quantity) :
    decimal s options x = if places ≤ placesLimit then some (s.fixed places x) else none := by
  unfold decimal
  rw [h]

/-- With a fixed count of places, a finite number is written as a sign, the whole digits in groups of
three, and behind the decimal separator the digits of the fraction. There is a minus sign if the
number is negative and a digit of it is not zero. Without the group separators, and with a point for
the decimal separator, this is the decimal it was made of.

The trimmed number is the same without the zeros behind the last decimal separator, and without the
separator if nothing is left behind it, so that it denotes the same number. A token gets the number
with the places that it asks for, as long as these are not too many. -/
theorem decimal_decoded (locale : String) {x : Float} {negative : Bool} {m : Nat} {e : Int}
    (hx : Binary64.ofFloat x = .finite negative m e) (places : Nat) :
    let s := NumberStyle.of locale
    let f := Decimal.Fixed.ofRat (Binary64.magnitude m e) places
    let sign := if negative && f.digits.any (· != '0') then ['-'] else []
    let fixed := s.fixed places (.ofFloat x)
    let trimmed := s.trimmed places (.ofFloat x)
    f.HasPlaces places ∧
      f.value = (Decimal.roundHalfEven (Binary64.magnitude m e * (10 ^ places : Nat)) : Rat) /
        10 ^ places ∧
      ∃ g d first rest kept zeros, s.Distinct g d ∧ NumberStyle.Threes f.whole first rest ∧
        f.fraction = kept ++ List.replicate zeros '0' ∧
        fixed = sign ++ [g].intercalate (first :: rest) ++
          (if places = 0 then [] else d :: f.fraction) ∧
        s.plain fixed = sign ++ f.text ∧
        trimmed = sign ++ [g].intercalate (first :: rest) ++ (if kept = [] then [] else d :: kept) ∧
        (trimmed = match Text.cutLast d fixed with
          | some (before, after) =>
            before ++ if NumberStyle.trimZeros after = [] then [] else
              d :: NumberStyle.trimZeros after
          | none => fixed) ∧
        trimmed.getLast? ≠ some d ∧ (d ∈ trimmed → trimmed.getLast? ≠ some '0') ∧
        Decimal.denoted (s.plain fixed) = (if negative then -f.value else f.value) ∧
        Decimal.denoted (s.plain trimmed) = (if negative then -f.value else f.value) ∧
        ∀ options : Option (List Char), options.bind places? = some places →
          decimal s options (.ofFloat x) = if places ≤ 65535 then some fixed else none := by
  intro s f sign fixed trimmed
  have hf : f.HasPlaces places := Decimal.Fixed.hasPlaces_ofRat _ places
  obtain ⟨g, d, h⟩ := NumberStyle.exists_distinct locale
  obtain ⟨first, rest, hthrees, hgroups⟩ := s.exists_threes hf.whole_ne_nil
  obtain ⟨zeros, hzeros⟩ := NumberStyle.exists_zeros f.fraction
  obtain ⟨hfixed, htrimmed⟩ : fixed = s.write negative f f.fraction ∧
      trimmed = s.write negative f (NumberStyle.trimZeros f.fraction) :=
    NumberStyle.fixed_ofFloat hx s places
  have hsign : Decimal.minus (negative && f.isNonzero) = sign := by
    rw [hf.isNonzero_eq]
    rfl
  rw [h.group] at hgroups
  have hwritten : ∀ fraction, s.write negative f fraction =
      sign ++ [g].intercalate (first :: rest) ++ if fraction = [] then [] else d :: fraction := by
    intro fraction
    rw [h.write_eq, hsign, hgroups]
  obtain ⟨hlast, hlastZero⟩ := h.getLast?_write_trimZeros hf negative
  obtain ⟨hdenoted, hdenotedTrimmed⟩ := h.denoted_write hf negative
  refine ⟨hf, Decimal.Fixed.value_ofRat _ places, g, d, first, rest,
    NumberStyle.trimZeros f.fraction, zeros, h, hthrees, hzeros, ?_, ?_, ?_, ?_, ?_, ?_, ?_, ?_, ?_⟩
  · rw [hfixed, hwritten]
    simp only [hf.fraction_eq_nil_iff]
  · rw [hfixed, h.plain_write hf negative fun c hc => hf.isDigit c (List.mem_append_right _ hc),
      hsign]
  · rw [htrimmed, hwritten]
  · rw [htrimmed, hfixed]
    exact h.write_trimZeros hf negative
  · rw [htrimmed]
    exact hlast
  · rw [htrimmed]
    exact hlastZero
  · rw [hfixed]
    exact hdenoted
  · rw [htrimmed]
    exact hdenotedTrimmed
  · exact fun options hplaces => decimal_of_places hplaces s _

/-- The point divides groups, and the zero of the fraction is left out. -/
theorem decimal_decoded_german :
    let x := -Float.ofScientific 12345005 true 1
    let s := NumberStyle.of "de-AT"
    Binary64.ofFloat x = .finite true 5302139274395648 (-32) ∧
      (some ['2']).bind places? = some 2 ∧
      decimal s (some ['2']) (.ofFloat x) = some "-1.234.500,50".toList ∧
      s.trimmed 2 (.ofFloat x) = "-1.234.500,5".toList ∧
      s.plain "-1.234.500,50".toList = "-1234500.50".toList := by
  intro x s
  have hx : Binary64.ofFloat x = .finite true 5302139274395648 (-32) := by decide +kernel
  have hplaces : (some ['2']).bind places? = some 2 := by decide +kernel
  obtain ⟨-, -, g, d, first, rest, kept, zeros, -, -, -, -, hplain, -, -, -, -, -, -, htoken⟩ :=
    decimal_decoded "de-AT" hx 2
  have hfixed : s.fixed 2 (.ofFloat x) = "-1.234.500,50".toList := by decide +kernel
  refine ⟨hx, hplaces, ?_, by decide +kernel, ?_⟩
  · rw [htoken _ hplaces, hfixed]
    rfl
  · rw [← hfixed, hplain]
    decide +kernel

/-- With one place more than can be written the token stays as it is. -/
theorem decimal_beyond_limit :
    let vars : Vars := [("n", .int 5)]
    let text := "\x7bn|decimal:65536\x7d"
    let s := Service.addCatalog (Service.answer 1) "en" "ns" [("p", .text text)]
      (Service.create { settings := { locale := "en" }, plugins := [(NumberFormat.plugin, none)] }).2
    Binary64.ofFloat (Value.floatOfInt 5) = .finite false 5629499534213120 (-50) ∧
      places? "65536".toList = some 65536 ∧
      decimal (.of "en") (some "65536".toList) (.ofFloat (Value.floatOfInt 5)) = none ∧
      formatTokens "en" vars text = none ∧
      (Service.phrase (Service.answer 1) "ns:p" { vars := some vars } s).1 = text :=
  ⟨by decide +kernel, by decide +kernel, by decide +kernel, by decide +kernel, by decide +kernel⟩

end NumberToken

end Phrasebook
