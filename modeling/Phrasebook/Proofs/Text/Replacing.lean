import Phrasebook.Text.Split

/-!
# Replacing every occurrence of a pattern

Two texts are rewritten apart where no occurrence straddles the border between them,
`replaceFrom_append`. A pattern that does not overlap with itself is replaced wherever it occurs, and
`Unbordered.replaceFrom_joinWith_eq_iff` says when only the joints of a text are.
-/

namespace Phrasebook.Text

variable {p r a b cs : List Char}

/-- An occurrence of `p` begins in `a` and ends in `b`. -/
def Straddles (p a b : List Char) : Prop :=
  ∃ u v, u ≠ [] ∧ v ≠ [] ∧ u ++ v = p ∧ u <:+ a ∧ v <+: b

/-- The number of places in a text where `p` begins. -/
def occurrences (p : List Char) : List Char → Nat
  | [] => 0
  | c :: cs => (if p.isPrefixOf (c :: cs) then 1 else 0) + occurrences p cs

/-! ### Texts side by side -/

theorem Straddles.cons (c : Char) (h : Straddles p a b) : Straddles p (c :: a) b := by
  obtain ⟨u, v, hu, hv, rfl, hsuffix, hprefix⟩ := h
  exact ⟨u, v, hu, hv, rfl, hsuffix.trans (List.suffix_cons c a), hprefix⟩

/-- The occurrence is cut somewhere inside. -/
theorem Straddles.exists_cut (h : Straddles p a b) :
    ∃ n, 0 < n ∧ n < p.length ∧ p.take n <:+ a ∧ p.drop n <+: b := by
  obtain ⟨u, v, hu, hv, rfl, hsuffix, hprefix⟩ := h
  have hpos := List.length_pos_iff.2 hu
  have hpos' := List.length_pos_iff.2 hv
  refine ⟨u.length, hpos, by rw [List.length_append]; omega, ?_, ?_⟩
  · rwa [List.take_left]
  · rwa [List.drop_left]

theorem isPrefixOf_append_iff (ha : a ≠ []) (h : ¬ Straddles p a b) :
    p.isPrefixOf (a ++ b) = p.isPrefixOf a := by
  rw [Bool.eq_iff_iff, List.isPrefixOf_iff_prefix, List.isPrefixOf_iff_prefix]
  refine ⟨fun hp => ?_, fun hp => hp.trans (List.prefix_append a b)⟩
  rcases List.prefix_or_prefix_of_prefix hp (List.prefix_append a b) with hpa | ⟨v, rfl⟩
  · exact hpa
  · cases v with
    | nil => simp
    | cons d v =>
      have hv : d :: v <+: b := (List.prefix_append_right_inj a).1 hp
      exact absurd ⟨a, d :: v, ha, List.cons_ne_nil d v, rfl, List.suffix_rfl, hv⟩ h

theorem replaceFrom_drop (skip : Nat) (cs : List Char) :
    replaceFrom p r skip cs = replaceFrom p r 0 (cs.drop skip) := by
  induction cs generalizing skip with
  | nil => rw [List.drop_nil, replaceFrom, replaceFrom]
  | cons c cs ih =>
    cases skip with
    | zero => rfl
    | succ skip => rw [replaceFrom, List.drop_succ_cons, ih]

theorem replaceFrom_cons {c : Char} (h : ¬ p <+: c :: cs) :
    replaceFrom p r 0 (c :: cs) = c :: replaceFrom p r 0 cs := by
  rw [replaceFrom, if_neg (mt List.isPrefixOf_iff_prefix.1 h)]

theorem replaceFrom_append (h : ¬ Straddles p a b) :
    replaceFrom p r 0 (a ++ b) = replaceFrom p r 0 a ++ replaceFrom p r 0 b := by
  have within : ∀ skip, skip ≤ a.length →
      replaceFrom p r skip (a ++ b) = replaceFrom p r skip a ++ replaceFrom p r 0 b := by
    induction a with
    | nil =>
      intro skip hskip
      obtain rfl := Nat.le_zero.1 hskip
      rfl
    | cons c a ih =>
      have ih := ih fun hs => h (hs.cons c)
      intro skip hskip
      cases skip with
      | succ skip =>
        rw [List.cons_append, replaceFrom, replaceFrom, ih skip (Nat.le_of_succ_le_succ hskip)]
      | zero =>
        rw [List.cons_append, replaceFrom, replaceFrom, ← List.cons_append,
          isPrefixOf_append_iff (List.cons_ne_nil c a) h]
        by_cases hp : p.isPrefixOf (c :: a) = true
        · have hle := (List.isPrefixOf_iff_prefix.1 hp).length_le
          rw [List.length_cons] at hle
          rw [if_pos hp, if_pos hp, ih _ (by omega), List.append_assoc]
        · rw [if_neg hp, if_neg hp, ih 0 (Nat.zero_le _), List.cons_append]
  exact within 0 (Nat.zero_le _)

theorem occurrences_cons {c : Char} (h : ¬ p <+: c :: cs) :
    occurrences p (c :: cs) = occurrences p cs := by
  rw [occurrences, if_neg (mt List.isPrefixOf_iff_prefix.1 h), Nat.zero_add]

theorem occurrences_append (h : ¬ Straddles p a b) :
    occurrences p (a ++ b) = occurrences p a + occurrences p b := by
  induction a with
  | nil => rw [List.nil_append, occurrences, Nat.zero_add]
  | cons c a ih =>
    rw [List.cons_append, occurrences, occurrences, ← List.cons_append,
      isPrefixOf_append_iff (List.cons_ne_nil c a) h, ih fun hs => h (hs.cons c), Nat.add_assoc]

theorem occurrences_of_short (h : cs.length < p.length) : occurrences p cs = 0 := by
  induction cs with
  | nil => rfl
  | cons c cs ih =>
    have hp : ¬ p <+: c :: cs := fun hp => Nat.not_lt.2 hp.length_le h
    rw [occurrences_cons hp, ih (Nat.lt_trans (Nat.lt_succ_self _) h)]

theorem occurrences_eq_zero (h : ¬ p <:+: cs) : occurrences p cs = 0 := by
  induction cs with
  | nil => rfl
  | cons c cs ih =>
    rw [occurrences_cons fun hpre => h hpre.isInfix]
    exact ih fun hin => h (hin.trans (List.suffix_cons c cs).isInfix)

theorem length_joinWith (sep first : List Char) (others : List (List Char)) :
    (joinWith sep (first :: others)).length =
      (first :: others).flatten.length + sep.length * others.length := by
  induction others generalizing first with
  | nil => simp [joinWith]
  | cons x others ih =>
    rw [joinWith, List.length_append, List.length_append, ih, List.flatten_cons (l := first),
      List.length_append, List.length_cons, Nat.mul_succ]
    omega

/-! ### Patterns that do not overlap with themselves -/

/-- No two occurrences of the pattern overlap. -/
structure Unbordered (p : List Char) : Prop where
  ne_nil : p ≠ []
  apart : ∀ rest, ¬ Straddles p p rest

namespace Unbordered

variable (hp : Unbordered p)

include hp

theorem not_straddles (a b : List Char) : ¬ Straddles p a (p ++ b) := by
  rintro ⟨u, v, hu, hv, huv, -, hprefix⟩
  have hlen : v.length < p.length := by
    have hpos := List.length_pos_iff.2 hu
    rw [← huv, List.length_append]
    omega
  -- what is behind the border is a start and an end of the pattern
  obtain ⟨w, hw⟩ :=
    List.prefix_of_prefix_length_le hprefix (List.prefix_append p b) (Nat.le_of_lt hlen)
  have hne : w ≠ [] := by
    rintro rfl
    rw [← hw, List.append_nil] at hlen
    exact Nat.lt_irrefl _ hlen
  exact hp.apart w ⟨v, w, hv, hne, hw, ⟨u, huv⟩, List.prefix_rfl⟩

theorem replaceFrom_append (rest : List Char) :
    replaceFrom p r 0 (p ++ rest) = r ++ replaceFrom p r 0 rest := by
  have hself : replaceFrom p r 0 p = r := by
    obtain ⟨c, cs, rfl⟩ := List.exists_cons_of_ne_nil hp.ne_nil
    rw [replaceFrom, if_pos (List.isPrefixOf_iff_prefix.2 List.prefix_rfl), replaceFrom_drop,
      List.length_cons, Nat.add_sub_cancel, List.drop_length, replaceFrom, List.append_nil]
  rw [Text.replaceFrom_append (hp.apart rest), hself]

theorem occurrences_append (rest : List Char) :
    occurrences p (p ++ rest) = occurrences p rest + 1 := by
  have hself : occurrences p p = 1 := by
    obtain ⟨c, cs, rfl⟩ := List.exists_cons_of_ne_nil hp.ne_nil
    rw [occurrences, if_pos (List.isPrefixOf_iff_prefix.2 List.prefix_rfl),
      occurrences_of_short (Nat.lt_succ_self _)]
  rw [Text.occurrences_append (hp.apart rest), hself, Nat.add_comm]

/-- Along a text: either an occurrence is next, or a character that begins none. -/
theorem induction {P : List Char → Prop} (nil : P [])
    (cons : ∀ c cs, ¬ p <+: c :: cs → P cs → P (c :: cs))
    (found : ∀ rest, P rest → P (p ++ rest)) (cs : List Char) : P cs := by
  induction hn : cs.length using Nat.strongRecOn generalizing cs with
  | ind n ih =>
    subst hn
    cases cs with
    | nil => exact nil
    | cons c cs =>
      by_cases hpre : p <+: c :: cs
      · obtain ⟨rest, hrest⟩ := hpre
        have hpos := List.length_pos_iff.2 hp.ne_nil
        have hshort : rest.length < (c :: cs).length := by
          rw [← hrest, List.length_append]
          omega
        rw [← hrest]
        exact found rest (ih _ hshort rest rfl)
      · exact cons c cs hpre (ih _ (Nat.lt_succ_self _) cs rfl)

theorem length_replaceFrom (cs : List Char) :
    (replaceFrom p r 0 cs).length + p.length * occurrences p cs =
      cs.length + r.length * occurrences p cs := by
  induction cs using hp.induction with
  | nil => rfl
  | cons c cs hpre ih =>
    rw [replaceFrom_cons hpre, occurrences_cons hpre, List.length_cons, List.length_cons]
    omega
  | found rest ih =>
    rw [hp.replaceFrom_append, hp.occurrences_append, Nat.mul_succ, Nat.mul_succ,
      List.length_append, List.length_append]
    omega

theorem replaceFrom_eq_self (h : r = p ∨ occurrences p cs = 0) : replaceFrom p r 0 cs = cs := by
  induction cs using hp.induction with
  | nil => rfl
  | cons c cs hpre ih =>
    rw [occurrences_cons hpre] at h
    rw [replaceFrom_cons hpre, ih h]
  | found rest ih =>
    rw [hp.occurrences_append] at h
    have hr : r = p := h.resolve_right (Nat.succ_ne_zero _)
    rw [hp.replaceFrom_append, ih (.inl hr), hr]

/-- Of the same length, a replacement stands where its occurrence was. -/
theorem occurrences_eq_zero (hlen : r.length = p.length) (hr : r ≠ p)
    (h : replaceFrom p r 0 cs = cs) : occurrences p cs = 0 := by
  induction cs using hp.induction with
  | nil => rfl
  | cons c cs hpre ih =>
    rw [replaceFrom_cons hpre] at h
    rw [occurrences_cons hpre, ih (List.cons.inj h).2]
  | found rest =>
    rw [hp.replaceFrom_append] at h
    exact absurd (List.append_inj_left h hlen) hr

/-! ### Texts joined by the pattern -/

theorem replaceFrom_around (a b : List Char) :
    replaceFrom p r 0 (a ++ p ++ b) = replaceFrom p r 0 a ++ r ++ replaceFrom p r 0 b := by
  rw [List.append_assoc, Text.replaceFrom_append (hp.not_straddles a b), hp.replaceFrom_append,
    List.append_assoc]

theorem occurrences_around (a b : List Char) :
    occurrences p (a ++ p ++ b) = occurrences p a + occurrences p b + 1 := by
  rw [List.append_assoc, Text.occurrences_append (hp.not_straddles a b), hp.occurrences_append]
  omega

/-- Each joint is an occurrence. -/
theorem length_le_occurrences (first : List Char) (others : List (List Char)) :
    others.length ≤ occurrences p (joinWith p (first :: others)) := by
  induction others generalizing first with
  | nil => exact Nat.zero_le _
  | cons x others ih =>
    have hle := ih x
    rw [joinWith, hp.occurrences_around, List.length_cons]
    omega

/-- Replacing the joints of a text replaces all that there is to replace, exactly if the joints are
the only occurrences or nothing is changed at all. -/
theorem replaceFrom_joinWith_eq_iff (first : List Char) (others : List (List Char)) :
    replaceFrom p r 0 (joinWith p (first :: others)) = joinWith r (first :: others) ↔
      r = p ∨ occurrences p (joinWith p (first :: others)) = others.length := by
  constructor
  · intro h
    by_cases hr : r = p
    · exact .inl hr
    refine .inr ?_
    by_cases hlen : r.length = p.length
    · induction others generalizing first with
      | nil => exact hp.occurrences_eq_zero hlen hr h
      | cons x others ih =>
        rw [joinWith, joinWith, hp.replaceFrom_around, List.append_assoc, List.append_assoc] at h
        have hcount := hp.length_replaceFrom (r := r) first
        rw [hlen] at hcount
        obtain ⟨hfirst, htail⟩ := List.append_inj h (Nat.add_right_cancel hcount)
        rw [joinWith, hp.occurrences_around, hp.occurrences_eq_zero hlen hr hfirst,
          ih x (List.append_cancel_left htail), Nat.zero_add, List.length_cons]
    · -- a text with more occurrences than joints has another length
      have hcount := hp.length_replaceFrom (r := r) (joinWith p (first :: others))
      rw [h, length_joinWith, length_joinWith] at hcount
      have hle := hp.length_le_occurrences first others
      obtain ⟨more, hmore⟩ := Nat.exists_eq_add_of_le hle
      rw [hmore, Nat.mul_add, Nat.mul_add] at hcount
      have hzero : more = 0 := by
        refine Nat.eq_zero_of_not_pos fun hpos => hlen (Nat.eq_of_mul_eq_mul_right hpos ?_)
        omega
      rw [hmore, hzero, Nat.add_zero]
  · intro h
    induction others generalizing first with
    | nil => exact hp.replaceFrom_eq_self h
    | cons x others ih =>
      have hle := hp.length_le_occurrences x others
      rw [joinWith, hp.occurrences_around, List.length_cons] at h
      rw [joinWith, joinWith, hp.replaceFrom_around,
        hp.replaceFrom_eq_self (h.imp_right fun h => by omega),
        ih x (h.imp_right fun h => by omega)]

end Unbordered

end Phrasebook.Text
