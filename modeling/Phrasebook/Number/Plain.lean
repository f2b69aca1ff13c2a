import Phrasebook.Number.Shortest

/-!
# Number texts

`Decimal.positional` writes digits around a point and never uses an exponent. `plainNumber` is the
text of a number inside a message; `jsonNumber` the text in a JSON document, where very large and
very small numbers have an exponent. The characters of a plain number are digits, the minus sign,
the point, or the letters of `NaN` and `inf`, so it holds no brace and no hash.
-/

namespace Phrasebook

namespace Decimal

/-- The decimal digits of a natural number. -/
def natDigits (n : Nat) : List Char :=
  Nat.toDigits 10 n

/-- `digits * 10 ^ exponent` with zeros where digits are missing; `whole` is written after a number
without a fraction part. -/
def positional (whole : List Char) (digits : Nat) (exponent : Int) : List Char :=
  let ds := natDigits digits
  if 0 ≤ exponent then ds ++ List.replicate exponent.toNat '0' ++ whole
  else
    let places := (-exponent).toNat
    if places < ds.length then ds.take (ds.length - places) ++ '.' :: ds.drop (ds.length - places)
    else '0' :: '.' :: List.replicate (places - ds.length) '0' ++ ds

/-- One digit, the others behind a point, and the exponent with its sign. -/
def scientific (digits : Nat) (exponent : Int) : List Char :=
  let ds := natDigits digits
  let e := exponent + (ds.length - 1 : Nat)
  ds.take 1 ++ (if ds.length = 1 then [] else '.' :: ds.drop 1) ++
    'e' :: (if 0 ≤ e then '+' else '-') :: natDigits e.natAbs

end Decimal

/-- The shortest positional text of a number. -/
def shortestText : Binary64 → List Char
  | .finite negative m e =>
    let (digits, exponent) := Decimal.shortest .up m e
    (if negative then ['-'] else []) ++ Decimal.positional [] digits exponent
  | .infinite negative => (if negative then ['-'] else []) ++ ['i', 'n', 'f']
  | .nan => ['N', 'a', 'N']

/-- Whole numbers below this bound are written as integers, so that zero has no sign. -/
def wholeBound : Nat := Nat.pow 10 15

/-- The text of a number inside a message. -/
def plainChars (x : Binary64) : List Char :=
  match x.natAbs? with
  | some n =>
    if n < wholeBound then (if x.isNegative && n != 0 then ['-'] else []) ++ Decimal.natDigits n
    else shortestText x
  | none => shortestText x

/-- The text of a number inside a message. -/
def plainNumber (x : Float) : String :=
  String.ofList (plainChars (Binary64.ofFloat x))

/-- The text of a number in a JSON document: positional with at least one place from `1e-5` up to
below `1e16`, otherwise with an exponent. -/
def jsonNumber (x : Float) : String :=
  match Binary64.ofFloat x with
  | .finite negative m e =>
    let (digits, exponent) := Decimal.shortest .even m e
    let point := exponent + (Decimal.natDigits digits).length
    let text :=
      if m = 0 ∨ (-5 < point ∧ point ≤ 16) then Decimal.positional ['.', '0'] digits exponent
      else Decimal.scientific digits exponent
    String.ofList ((if negative then ['-'] else []) ++ text)
  | _ => "null"

namespace Decimal

theorem isDigit_of_mem_natDigits {n : Nat} {c : Char} (h : c ∈ natDigits n) : c.isDigit = true :=
  Nat.isDigit_of_mem_toDigits (by decide) (by decide) h

theorem mem_positional {digits : Nat} {exponent : Int} {c : Char}
    (h : c ∈ positional [] digits exponent) : c.isDigit = true ∨ c = '.' := by
  have zeros : ∀ k, c ∈ List.replicate k '0' → c.isDigit = true := by
    intro k hk
    rw [(List.mem_replicate.1 hk).2]
    rfl
  have ds : c ∈ natDigits digits → c.isDigit = true := isDigit_of_mem_natDigits
  unfold positional at h
  dsimp only at h
  split at h
  · simp only [List.append_nil, List.mem_append] at h
    exact h.elim (fun h => .inl (ds h)) fun h => .inl (zeros _ h)
  · split at h
    · rcases List.mem_append.1 h with h | h
      · exact .inl (ds (List.mem_of_mem_take h))
      · rcases List.mem_cons.1 h with h | h
        · exact .inr h
        · exact .inl (ds (List.mem_of_mem_drop h))
    · simp only [List.cons_append, List.mem_cons, List.mem_append] at h
      rcases h with h | h | h | h
      · subst h; exact .inl rfl
      · exact .inr h
      · exact .inl (zeros _ h)
      · exact .inl (ds h)

end Decimal

/-- The characters that plain numbers are written with. -/
def isPlainNumberChar (c : Char) : Bool :=
  c.isDigit || c ∈ ['.', '-', 'i', 'n', 'f', 'N', 'a']

theorem isPlainNumberChar_of_mem_shortestText {x : Binary64} {c : Char}
    (h : c ∈ shortestText x) : isPlainNumberChar c = true := by
  have sign : ∀ negative : Bool, c ∈ (if negative then ['-'] else []) → c = '-' := by
    intro negative hc
    cases negative <;> simp_all
  cases x with
  | finite negative m e =>
    rcases List.mem_append.1 h with h | h
    · rw [sign _ h]; rfl
    · rcases Decimal.mem_positional h with h | h
      · simp [isPlainNumberChar, h]
      · rw [h]; rfl
  | infinite negative =>
    rcases List.mem_append.1 h with h | h
    · rw [sign _ h]; rfl
    · simp only [List.mem_cons, List.not_mem_nil, or_false] at h
      rcases h with rfl | rfl | rfl <;> rfl
  | nan =>
    simp only [shortestText, List.mem_cons, List.not_mem_nil, or_false] at h
    rcases h with rfl | rfl | rfl <;> rfl

theorem isPlainNumberChar_of_mem_plainChars {x : Binary64} {c : Char}
    (h : c ∈ plainChars x) : isPlainNumberChar c = true := by
  unfold plainChars at h
  split at h
  · split at h
    · rcases List.mem_append.1 h with h | h
      · split at h
        · simp only [List.mem_cons, List.not_mem_nil, or_false] at h
          rw [h]; rfl
        · simp at h
      · simp [isPlainNumberChar, Decimal.isDigit_of_mem_natDigits h]
    · exact isPlainNumberChar_of_mem_shortestText h
  · exact isPlainNumberChar_of_mem_shortestText h

end Phrasebook
