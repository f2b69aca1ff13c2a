import Mathlib.Algebra.Order.Field.Rat
import Mathlib.Tactic.Linarith
import Phrasebook.Proofs.Number.Places

/-!
# Where rounding goes up

`lt_roundHalfEven_iff` says which numbers are rounded above a given one. So a written number has a
digit other than zero exactly if it is more than half of its last place: `isNonzero_ofRat_iff`.
-/

namespace Phrasebook.Decimal

variable {q : Rat} {a d n : Nat}

/-- The fraction `a / d` is above `n` and a half, or at it and `n` is odd. -/
theorem lt_rounded_iff (hd : 0 < d) :
    (n < if 2 * (a % d) < d then a / d
      else if d < 2 * (a % d) then a / d + 1
      else if a / d % 2 = 0 then a / d else a / d + 1) ↔
    (2 * n + 1) * d < 2 * a ∨ (2 * n + 1) * d = 2 * a ∧ n % 2 = 1 := by
  have hmod := Nat.mod_lt a hd
  have hdiv := Nat.div_add_mod a d
  generalize a / d = k at hdiv ⊢
  generalize a % d = r at hmod hdiv ⊢
  rcases Nat.lt_trichotomy n k with hn | rfl | hn
  · have hle : (2 * n + 2) * d ≤ 2 * k * d := Nat.mul_le_mul_right d (by omega)
    have hsplit : (2 * n + 2) * d = (2 * n + 1) * d + d := by ring
    have hprod : 2 * k * d = 2 * (d * k) := by ring
    refine iff_of_true ?_ (.inl (by omega))
    split_ifs <;> omega
  · have hprod : (2 * n + 1) * d = 2 * (d * n) + d := by ring
    rw [hprod]
    split_ifs <;> omega
  · have hle : (2 * k + 3) * d ≤ (2 * n + 1) * d := Nat.mul_le_mul_right d (by omega)
    have hprod : (2 * k + 3) * d = 2 * (d * k) + 3 * d := by ring
    refine iff_of_false ?_ (by omega)
    split_ifs <;> omega

/-- A number is rounded above `n` if it is nearer to `n + 1`, or half-way and `n` is odd. -/
theorem lt_roundHalfEven_iff (hq : 0 ≤ q) (n : Nat) :
    n < roundHalfEven q ↔ (n : Rat) + 1 / 2 < q ∨ (n : Rat) + 1 / 2 = q ∧ n % 2 = 1 := by
  have hd : (0 : Rat) < q.den := by exact_mod_cast q.den_pos
  have hfraction : q = (q.num.natAbs : Rat) / q.den := by
    rw [Nat.cast_natAbs, abs_of_nonneg (Rat.num_nonneg.2 hq), Rat.num_div_den]
  have hlt : (n : Rat) + 1 / 2 < q ↔ (2 * n + 1) * q.den < 2 * q.num.natAbs := by
    conv_lhs => rw [hfraction, lt_div_iff₀ hd]
    rw [← @Nat.cast_lt Rat]
    push_cast
    constructor <;> intro h <;> linarith
  have heq : (n : Rat) + 1 / 2 = q ↔ (2 * n + 1) * q.den = 2 * q.num.natAbs := by
    conv_lhs => rw [hfraction, eq_div_iff hd.ne']
    rw [← @Nat.cast_inj Rat]
    push_cast
    constructor <;> intro h <;> linarith
  rw [hlt, heq]
  exact lt_rounded_iff q.den_pos

theorem digitsValue_eq_zero_iff {cs : List Char} (hcs : ∀ c ∈ cs, c.isDigit = true) :
    digitsValue cs = 0 ↔ ∀ c ∈ cs, c = '0' := by
  induction cs with
  | nil => simp [digitsValue]
  | cons c cs ih =>
    obtain ⟨hc, hrest⟩ := List.forall_mem_cons.1 hcs
    have hfirst : digitsValue [c] = 0 ↔ c = '0' := by
      have hlow : 48 ≤ c.toNat := by
        simp only [Char.isDigit, Bool.and_eq_true, decide_eq_true_eq] at hc
        exact hc.1
      have hvalue : digitsValue [c] = c.toNat - 48 := by
        rw [digitsValue, List.foldl_cons, List.foldl_nil]
        omega
      rw [hvalue, ← Char.toNat_inj, show '0'.toNat = 48 from rfl]
      omega
    have hpower : 10 ^ cs.length ≠ 0 := pow_ne_zero _ (by decide)
    rw [← List.singleton_append, digitsValue_append, Nat.add_eq_zero_iff,
      mul_eq_zero_iff_left hpower, List.forall_mem_append, List.forall_mem_singleton, hfirst,
      ih hrest]

theorem Fixed.HasPlaces.isNonzero_iff_pos {f : Fixed} {places : Nat} (h : f.HasPlaces places) :
    f.isNonzero = true ↔ 0 < digitsValue f.digits := by
  rw [h.isNonzero_iff, Nat.pos_iff_ne_zero, ne_eq, digitsValue_eq_zero_iff h.isDigit]
  push Not
  rfl

/-- A digit other than zero is written where the number is more than half of the last place. -/
theorem Fixed.isNonzero_ofRat_iff (hq : 0 ≤ q) (places : Nat) :
    (ofRat q places).isNonzero = true ↔ 1 / 2 < q * 10 ^ places := by
  have hscaled : 0 ≤ q * (10 ^ places : Nat) := mul_nonneg hq (Nat.cast_nonneg _)
  rw [(hasPlaces_ofRat q places).isNonzero_iff_pos, digitsValue_ofRat,
    lt_roundHalfEven_iff hscaled]
  push_cast
  simp

end Phrasebook.Decimal
