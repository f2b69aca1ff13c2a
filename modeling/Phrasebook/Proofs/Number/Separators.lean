import Phrasebook.Proofs.Number.Places

/-!
# Separators and groups of digits

No two characters of a localized number can be confused: the separators of a style are different
from each other, from digits and from the minus sign. So the text that `NumberStyle.plain` makes of a
number has its digits without the separators, and `exists_threes` says how they are grouped.
-/

namespace Phrasebook

namespace Decimal

/-- The sign of a negative number. -/
def minus (negative : Bool) : List Char :=
  if negative then ['-'] else []

theorem notMem_minus {c : Char} (hc : c ≠ '-') (negative : Bool) : c ∉ minus negative := by
  cases negative with
  | true => exact fun hmem => hc (List.mem_singleton.1 hmem)
  | false => exact List.not_mem_nil

theorem ne_of_isDigit {c sep : Char} (hc : c.isDigit = true) (hsep : sep.isDigit = false) :
    c ≠ sep := by
  rintro rfl
  rw [hc] at hsep
  exact Bool.noConfusion hsep

theorem notMem_of_isDigit {cs : List Char} {sep : Char} (hcs : ∀ c ∈ cs, c.isDigit = true)
    (hsep : sep.isDigit = false) : sep ∉ cs :=
  fun hmem => ne_of_isDigit (hcs sep hmem) hsep rfl

end Decimal

namespace NumberStyle

variable {s : NumberStyle} {g d c : Char} {cs ds fraction : List Char}

/-! ### Separators -/

/-- The separators are the characters `g` and `d`, and neither can be taken for the other, for a
digit or for a sign. -/
structure Distinct (s : NumberStyle) (g d : Char) : Prop where
  group : s.group = [g]
  decimal : s.decimal = [d]
  ne : d ≠ g
  isDigit_group : g.isDigit = false
  isDigit_decimal : d.isDigit = false
  group_ne_minus : g ≠ '-'
  decimal_ne_minus : d ≠ '-'

/-- Every locale has such separators. -/
theorem exists_distinct (locale : String) : ∃ g d, (of locale).Distinct g d := by
  unfold of
  dsimp only
  split
  · exact ⟨'.', ',', ⟨rfl, rfl, by decide, by decide, by decide, by decide, by decide⟩⟩
  · split
    · exact ⟨'\u202f', ',', ⟨rfl, rfl, by decide, by decide, by decide, by decide, by decide⟩⟩
    · exact ⟨',', '.', ⟨rfl, rfl, by decide, by decide, by decide, by decide, by decide⟩⟩

/-- The text without group separators, and with a point for the decimal separator. -/
def plain (s : NumberStyle) (text : List Char) : List Char :=
  (text.filter (· ∉ s.group)).map fun c => if c ∈ s.decimal then '.' else c

theorem plain_append (s : NumberStyle) (a b : List Char) :
    s.plain (a ++ b) = s.plain a ++ s.plain b := by
  unfold plain
  rw [List.filter_append, List.map_append]

theorem Distinct.plain_eq_self (h : s.Distinct g d) (hcs : g ∉ cs ∧ d ∉ cs) : s.plain cs = cs := by
  have hfilter : cs.filter (· ∉ s.group) = cs := by
    refine List.filter_eq_self.2 fun c hc => ?_
    have hne : c ≠ g := fun he => hcs.1 (he ▸ hc)
    simp [h.group, hne]
  have hmap : ∀ c ∈ cs, (if c ∈ s.decimal then '.' else c) = c := by
    intro c hc
    have hne : c ≠ d := fun he => hcs.2 (he ▸ hc)
    simp [h.decimal, hne]
  rw [plain, hfilter, List.map_congr_left hmap, List.map_id']

theorem Distinct.plain_digits (h : s.Distinct g d) (hds : ∀ c ∈ ds, c.isDigit = true) :
    s.plain ds = ds :=
  h.plain_eq_self ⟨Decimal.notMem_of_isDigit hds h.isDigit_group,
    Decimal.notMem_of_isDigit hds h.isDigit_decimal⟩

theorem Distinct.plain_minus (h : s.Distinct g d) (negative : Bool) :
    s.plain (Decimal.minus negative) = Decimal.minus negative := by
  cases negative with
  | true => exact h.plain_eq_self (by simp [Decimal.minus, h.group_ne_minus, h.decimal_ne_minus])
  | false => rfl

theorem Distinct.plain_group (h : s.Distinct g d) : s.plain s.group = [] := by
  simp [plain, h.group]

theorem Distinct.plain_decimal (h : s.Distinct g d) : s.plain [d] = ['.'] := by
  simp [plain, h.group, h.decimal, h.ne]

/-! ### Groups of digits -/

/-- The digits in groups: up to three in the first one and three in every other. -/
structure Threes (ds first : List Char) (rest : List (List Char)) : Prop where
  digits : (first :: rest).flatten = ds
  pos : 1 ≤ first.length
  le_three : first.length ≤ 3
  eq_three : ∀ p ∈ rest, p.length = 3

theorem Threes.length_eq {first : List Char} {rest : List (List Char)} (h : Threes ds first rest) :
    ds.length = first.length + 3 * rest.length := by
  rw [← h.digits, List.flatten_cons, List.length_append, List.length_flatten,
    List.map_congr_left h.eq_three, List.map_const', List.sum_replicate_nat, Nat.mul_comm]

theorem groupDigits_cons (s : NumberStyle) (c : Char) (ds : List Char) :
    s.groupDigits (c :: ds) =
      (if ds ≠ [] ∧ ds.length % 3 = 0 then c :: s.group else [c]) ++ s.groupDigits ds := by
  rw [groupDigits]
  split <;> rfl

/-- Digits are written in their groups. -/
theorem exists_threes (s : NumberStyle) (hne : ds ≠ []) :
    ∃ first rest, Threes ds first rest ∧ s.groupDigits ds = s.group.intercalate (first :: rest) := by
  induction ds with
  | nil => exact absurd rfl hne
  | cons c ds ih =>
    rw [groupDigits_cons]
    by_cases hds : ds = []
    · subst hds
      exact ⟨[c], [], ⟨rfl, by simp, by simp, by simp⟩, by simp [groupDigits]⟩
    · obtain ⟨first, rest, hthrees, hwritten⟩ := ih hds
      have hlength := hthrees.length_eq
      obtain ⟨hdigits, hpos, hle, hrest⟩ := hthrees
      by_cases hfull : ds.length % 3 = 0
      · -- the group in front is full, so that the digit begins another one
        refine ⟨[c], first :: rest, ⟨?_, by simp, by simp, ?_⟩, ?_⟩
        · rw [List.flatten_cons, hdigits]
          rfl
        · exact List.forall_mem_cons.2 ⟨by omega, hrest⟩
        · rw [if_pos ⟨hds, hfull⟩, hwritten, List.intercalate_cons_cons]
          rfl
      · refine ⟨c :: first, rest, ⟨?_, by simp, ?_, hrest⟩, ?_⟩
        · rw [← hdigits]
          rfl
        · rw [List.length_cons]
          omega
        · rw [if_neg fun hg => hfull hg.2, hwritten]
          cases rest with
          | nil => simp
          | cons p ps =>
            rw [List.intercalate_cons_cons, List.intercalate_cons_cons]
            rfl

theorem mem_groupDigits (h : c ∈ s.groupDigits ds) : c ∈ ds ∨ c ∈ s.group := by
  induction ds with
  | nil => simp [groupDigits] at h
  | cons b ds ih =>
    rw [groupDigits_cons] at h
    rcases List.mem_append.1 h with h | h
    · split at h
      · rcases List.mem_cons.1 h with rfl | h
        · exact .inl List.mem_cons_self
        · exact .inr h
      · exact .inl (List.mem_singleton.1 h ▸ List.mem_cons_self)
    · exact (ih h).imp_left (List.mem_cons_of_mem b)

theorem Distinct.plain_groupDigits (h : s.Distinct g d) (hds : ∀ c ∈ ds, c.isDigit = true) :
    s.plain (s.groupDigits ds) = ds := by
  induction ds with
  | nil => rfl
  | cons c ds ih =>
    have hc : s.plain [c] = [c] := h.plain_digits (by simpa using hds c List.mem_cons_self)
    have hgroup : s.plain (c :: s.group) = [c] := by
      rw [← List.singleton_append, plain_append, hc, h.plain_group, List.append_nil]
    have hfirst : s.plain (if ds ≠ [] ∧ ds.length % 3 = 0 then c :: s.group else [c]) = [c] := by
      split
      · exact hgroup
      · exact hc
    rw [groupDigits_cons, plain_append, hfirst, ih fun b hb => hds b (List.mem_cons_of_mem c hb)]
    rfl

/-! ### Zeros at the end -/

theorem trimZeros_eq_rdropWhile (fraction : List Char) :
    trimZeros fraction = fraction.rdropWhile (· == '0') := rfl

theorem exists_zeros (fraction : List Char) :
    ∃ zeros, fraction = trimZeros fraction ++ List.replicate zeros '0' := by
  have hzeros : ∀ c ∈ fraction.rtakeWhile (· == '0'), c = '0' := by
    intro c hc
    simpa using List.mem_rtakeWhile_imp hc
  refine ⟨(fraction.rtakeWhile (· == '0')).length, ?_⟩
  rw [trimZeros_eq_rdropWhile, ← List.eq_replicate_of_mem hzeros,
    List.rdropWhile_append_rtakeWhile]

theorem mem_of_mem_trimZeros (h : c ∈ trimZeros fraction) : c ∈ fraction := by
  obtain ⟨zeros, hzeros⟩ := exists_zeros fraction
  rw [hzeros]
  exact List.mem_append_left _ h

theorem getLast?_trimZeros (fraction : List Char) : (trimZeros fraction).getLast? ≠ some '0' := by
  intro hlast
  have hne : trimZeros fraction ≠ [] := by
    intro hnil
    simp [hnil] at hlast
  rw [List.getLast?_eq_some_getLast hne, Option.some.injEq] at hlast
  refine List.rdropWhile_last_not (· == '0') fraction hne ?_
  show ((trimZeros fraction).getLast hne == '0') = true
  rw [hlast]
  rfl

end NumberStyle

end Phrasebook
