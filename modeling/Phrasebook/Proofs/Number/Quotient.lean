import Mathlib
import Phrasebook.Number.Binary64

/-!
# Signs of quotients

A number divided by a positive one keeps its sign bit, however the quotient is rounded, and also
where it is rounded to zero or overflows: `msb_div`. Zero stays zero: `ofFloat_div_zero`.
-/

namespace Phrasebook.Binary64

open Float.Model Float.Model.UnpackedFloat

def isMinus : Sign → Bool
  | .negative => true
  | .positive => false

/-- Whether a number has a minus sign; not-a-number has no sign. -/
def minus? : UnpackedFloat → Option Bool
  | .infinity s => some (isMinus s)
  | .notANumber => none
  | .zero s => some (isMinus s)
  | .finite s _ _ _ => some (isMinus s)

theorem minus?_eq_none {f : UnpackedFloat} (h : minus? f = none) : f = .notANumber := by
  cases f with
  | notANumber => rfl
  | _ => cases h

/-- Finite, and above zero. -/
def isPositive : UnpackedFloat → Bool
  | .finite .positive _ _ _ => true
  | _ => false

theorem msb_packComponents (s : Sign) (e : BitVec 11) (m : BitVec 52) :
    (packComponents Format.binary64 s e m).msb = isMinus s := by
  rw [packComponents, BitVec.msb_append, BitVec.msb_append]
  cases s <;> rfl

theorem msb_pack {f : UnpackedFloat} {negative : Bool} (h : minus? f = some negative) :
    (UnpackedFloat.pack Format.binary64 f).msb = negative := by
  cases f with
  | notANumber => simp [minus?] at h
  | infinity s =>
    rw [← Option.some.inj h]
    exact msb_packComponents ..
  | zero s =>
    rw [← Option.some.inj h]
    exact msb_packComponents ..
  | finite s m e hm =>
    rw [← Option.some.inj h]
    unfold UnpackedFloat.pack
    dsimp only
    split
    · exact msb_packComponents ..
    · split <;> exact msb_packComponents ..

/-- The first bit is the sign, except that not-a-number has the one of the plus sign. -/
theorem msb_of_unpack (x : Float.Model) :
    (x.unpack = .notANumber ∧ x.toBits.toBitVec.msb = false) ∨
      minus? x.unpack = some x.toBits.toBitVec.msb := by
  have hbits : UnpackedFloat.pack Format.binary64 x.unpack = x.toBits.toBitVec :=
    pack_unpack_of_valid x.valid
  cases hminus : minus? x.unpack with
  | none =>
    have hnan := minus?_eq_none hminus
    rw [← hbits, hnan]
    exact .inl ⟨rfl, msb_packComponents ..⟩
  | some negative =>
    rw [← hbits, msb_pack hminus]
    exact .inr rfl

theorem exists_of_isPositive {f : UnpackedFloat} (h : isPositive f = true) :
    ∃ m e hm, f = .finite .positive m e hm := by
  unfold isPositive at h
  split at h
  · exact ⟨_, _, _, rfl⟩
  · cases h

theorem div_positive (s : Sign) : s / .positive = s := by
  cases s <;> rfl

theorem minus?_div (f : UnpackedFloat) {g : UnpackedFloat} (hg : isPositive g = true) :
    minus? (UnpackedFloat.div Format.binary64 f g) = minus? f := by
  obtain ⟨n, k, hn, rfl⟩ := exists_of_isPositive hg
  cases f with
  | notANumber => rfl
  | infinity s => exact congrArg (some ∘ isMinus) (div_positive s)
  | zero s => exact congrArg (some ∘ isMinus) (div_positive s)
  | finite s m e hm =>
    unfold UnpackedFloat.div roundWithAccuracy
    dsimp only
    split <;> exact congrArg (some ∘ isMinus) (div_positive s)

variable {x y : Float} {negative : Bool}

theorem toBits_div (x y : Float) :
    (x / y).toBits = .ofBitVec (UnpackedFloat.pack Format.binary64
      (UnpackedFloat.div Format.binary64 x.toModel.unpack y.toModel.unpack)) := rfl

/-- Dividing by a positive number does not change the sign bit. -/
theorem msb_div (x : Float) (hy : isPositive y.toModel.unpack = true) :
    (x / y).toBits.toBitVec.msb = x.toBits.toBitVec.msb := by
  rw [toBits_div]
  rcases msb_of_unpack x.toModel with ⟨hnan, hmsb⟩ | hsign
  · rw [hnan]
    exact (msb_packComponents ..).trans hmsb.symm
  · exact msb_pack ((minus?_div _ hy).trans hsign)

theorem negative_eq_msb {m : Nat} {e : Int} (h : ofFloat x = .finite negative m e) :
    negative = x.toBits.toBitVec.msb := by
  have hbit : (x.toBits.toNat / Nat.pow 2 63 % 2 == 1) = x.toBits.toBitVec.msb := by
    have hlt := x.toBits.toNat_lt
    rw [BitVec.msb_eq_decide, Bool.eq_iff_iff, beq_iff_eq, decide_eq_true_iff]
    show x.toBits.toNat / 9223372036854775808 % 2 = 1 ↔ 9223372036854775808 ≤ x.toBits.toNat
    omega
  rw [← hbit]
  unfold ofFloat ofBits at h
  dsimp only at h
  split at h
  · split at h <;> cases h
  · split at h <;> exact (Binary64.finite.inj h).1.symm

theorem negative_div (hy : isPositive y.toModel.unpack = true) {negative' : Bool} {m m' : Nat}
    {e e' : Int} (hx : ofFloat x = .finite negative m e)
    (hq : ofFloat (x / y) = .finite negative' m' e') : negative' = negative := by
  rw [negative_eq_msb hx, negative_eq_msb hq, msb_div x hy]

/-! ### Zero -/

/-- A zero has no bits but its sign. -/
theorem toBits_of_zero {e : Int} (h : ofFloat x = .finite negative 0 e) :
    x.toBits = if negative then 0x8000000000000000 else 0 := by
  have hlt := x.toBits.toNat_lt
  have hnat : x.toBits.toNat = if negative then 0x8000000000000000 else 0 := by
    simp only [ofFloat, ofBits, Nat.pow_eq, Nat.reducePow] at h
    split at h
    · split at h <;> cases h
    · split at h <;> obtain ⟨hsign, hfraction, -⟩ := Binary64.finite.inj h
      · rw [← hsign]
        simp only [beq_iff_eq]
        split <;> omega
      · omega
  rw [← UInt64.toNat_inj, hnat]
  split <;> rfl

theorem ofFloat_div_zero (hy : isPositive y.toModel.unpack = true) {e : Int}
    (h : ofFloat x = .finite negative 0 e) : ofFloat (x / y) = .finite negative 0 (-1074) := by
  have hzero : x.toModel.unpack = .zero (if negative then .negative else .positive) := by
    have hbits : x.toModel.toBits = _ := toBits_of_zero h
    unfold Float.Model.unpack
    rw [hbits]
    cases negative <;> rfl
  obtain ⟨n, k, hn, hpositive⟩ := exists_of_isPositive hy
  have hquotient : ∀ s : Sign,
      UnpackedFloat.div Format.binary64 (.zero s) (.finite .positive n k hn) = .zero s :=
    fun s => congrArg UnpackedFloat.zero (div_positive s)
  unfold ofFloat
  rw [toBits_div, hzero, hpositive, hquotient]
  cases negative <;> decide +kernel

end Phrasebook.Binary64
