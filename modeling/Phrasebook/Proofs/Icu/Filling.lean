import Phrasebook.Template.Icu

/-!
# Hashes and numbers

`fillHash` puts a number in the place of each hash. `IsNumber` says what may have taken that place
when a text is read: still a hash, or the number of a pattern around it.
-/

namespace Phrasebook.Icu

theorem fillHash_append (number a b : List Char) :
    fillHash number (a ++ b) = fillHash number a ++ fillHash number b := by
  simp [fillHash]

theorem fillHash_hash (number : List Char) : fillHash number ['#'] = number := by
  simp [fillHash]

theorem fillHash_of_notMem {cs : List Char} (h : '#' ∉ cs) (number : List Char) :
    fillHash number cs = cs := by
  induction cs with
  | nil => rfl
  | cons c cs ih =>
    simp only [List.mem_cons, not_or] at h
    rw [show c :: cs = [c] ++ cs from rfl, fillHash_append, ih h.2]
    simp [fillHash, Ne.symm h.1]

theorem fillHash_self (cs : List Char) : fillHash ['#'] cs = cs := by
  induction cs with
  | nil => rfl
  | cons c cs ih =>
    rw [show c :: cs = [c] ++ cs from rfl, fillHash_append, ih]
    by_cases hc : c = '#' <;> simp [fillHash, hc]

theorem fillHash_fillHash (a b cs : List Char) :
    fillHash a (fillHash b cs) = fillHash (fillHash a b) cs := by
  induction cs with
  | nil => rfl
  | cons c cs ih =>
    rw [show c :: cs = [c] ++ cs from rfl, fillHash_append, fillHash_append, fillHash_append, ih]
    by_cases hc : c = '#' <;> simp [fillHash, hc]

theorem mem_fillHash {number cs : List Char} {c : Char} (h : c ∈ fillHash number cs) :
    (c ∈ cs ∧ c ≠ '#') ∨ (c ∈ number ∧ '#' ∈ cs) := by
  obtain ⟨d, hd, hc⟩ := List.mem_flatMap.1 h
  split at hc
  · rename_i he
    exact .inr ⟨hc, he ▸ hd⟩
  · rename_i he
    rw [List.mem_singleton.1 hc]
    exact .inl ⟨hd, he⟩

theorem count_fillHash {c : Char} {number : List Char} (hc : c ≠ '#') (hn : c ∉ number)
    (body : List Char) : (fillHash number body).count c = body.count c := by
  induction body with
  | nil => rfl
  | cons d rest ih =>
    rw [show d :: rest = [d] ++ rest from rfl, fillHash_append, List.count_append,
      List.count_append, ih]
    by_cases hd : d = '#'
    · subst hd
      simp [fillHash, List.count_eq_zero.2 hn, hc.symm]
    · simp [fillHash, hd]

theorem notMem_plainChars {c : Char} (hc : isPlainNumberChar c = false) (x : Binary64) :
    c ∉ plainChars x := by
  intro h
  rw [isPlainNumberChar_of_mem_plainChars h] at hc
  exact Bool.noConfusion hc

theorem plainChars_ne_nil (x : Binary64) : plainChars x ≠ [] := by
  have hdigits : ∀ n, Decimal.natDigits n ≠ [] := fun n => Nat.toDigits_ne_nil
  have hpositional : ∀ n e, Decimal.positional [] n e ≠ [] := by
    intro n e
    unfold Decimal.positional
    dsimp only
    split
    · simp [hdigits]
    · split <;> simp
  have hshort : shortestText x ≠ [] := by
    cases x with
    | finite negative m e => simp [shortestText, hpositional]
    | infinite negative => simp [shortestText]
    | nan => simp [shortestText]
  unfold plainChars
  split
  · split
    · simp [hdigits]
    · exact hshort
  · exact hshort

/-- What stands where a hash was written: still the hash, or a number. -/
def IsNumber (hash : List Char) : Prop :=
  hash = ['#'] ∨ ∃ x, hash = plainChars x

namespace IsNumber

variable {hash : List Char}

theorem notMem (h : IsNumber hash) {c : Char} (hc : isPlainNumberChar c = false) (hh : c ≠ '#') :
    c ∉ hash := by
  rcases h with rfl | ⟨x, rfl⟩
  · simpa using hh
  · exact notMem_plainChars hc x

theorem ne_nil (h : IsNumber hash) : hash ≠ [] := by
  rcases h with rfl | ⟨x, rfl⟩
  · exact List.cons_ne_nil _ _
  · exact plainChars_ne_nil x

end IsNumber

end Phrasebook.Icu
