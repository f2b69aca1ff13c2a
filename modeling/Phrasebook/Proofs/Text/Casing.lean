import Mathlib.Data.List.Infix
import Phrasebook.Proofs.Text.Pieces
import Phrasebook.Text.Transform

/-!
# What changes of letter case leave alone

No character but the opening brace itself becomes an opening brace, so that a text without one has
none after a change either. A name with the ending of a change is split again: no ending is the end
of another one.
-/

namespace Phrasebook.Text

/-! ### Characters that are no images -/

/-- No character of the run is mapped to the code point. -/
def CaseRun.Misses (n : Nat) (r : CaseRun) : Prop :=
  (n : Int) < r.first + r.shift ∨ r.last + r.shift < (n : Int)

instance (n : Nat) : DecidablePred (CaseRun.Misses n) :=
  fun _ => inferInstanceAs (Decidable (_ ∨ _))

theorem CaseRun.Misses.image?_ne {n : Nat} {r : CaseRun} (h : r.Misses n) (hn : 0 < n) (m : Nat) :
    r.image? m ≠ some n := by
  unfold CaseRun.image?
  split
  · rename_i hm
    intro he
    have hne : (m + r.shift).toNat = n := Option.some.inj he
    unfold CaseRun.Misses at h
    omega
  · simp

theorem toNat_of_ofNat {n : Nat} {d : Char} (h : Char.ofNat n = d) (hd : 0 < d.toNat) :
    n = d.toNat := by
  by_cases hvalid : n.isValidChar
  · have hof : Char.ofNat n = Char.ofNatAux n hvalid := dif_pos hvalid
    rw [← h, hof]
    rfl
  · have hof : Char.ofNat n = Char.ofNat 0 := dif_neg hvalid
    rw [← h, hof] at hd
    exact absurd hd (by decide)

theorem notMem_mapCase {runs : List CaseRun} {expansions : List (Nat × List Nat)} {c d : Char}
    (hd : 0 < d.toNat) (hruns : ∀ r ∈ runs, r.Misses d.toNat)
    (hexpansions : ∀ e ∈ expansions, d.toNat ∉ e.2) (hc : c ≠ d) :
    d ∉ mapCase runs expansions c := by
  unfold mapCase
  split
  · rename_i ns hlookup
    intro hmem
    obtain ⟨n, hn, hdn⟩ := List.mem_map.1 hmem
    obtain ⟨before, after, he, -⟩ := List.lookup_eq_some_iff.1 hlookup
    exact hexpansions (c.toNat, ns) (by simp [he]) (toNat_of_ofNat hdn hd ▸ hn)
  · split
    · rename_i n hfind
      intro hmem
      obtain ⟨r, hr, himage⟩ := List.exists_of_findSome?_eq_some hfind
      have hn : n = d.toNat := toNat_of_ofNat (List.mem_singleton.1 hmem).symm hd
      exact (hruns r hr).image?_ne hd c.toNat (hn ▸ himage)
    · simpa using hc.symm

theorem notMem_ascii {f : Char → Char} {d : Char}
    (hf : ∀ n < 128, n ≠ d.toNat → f (Char.ofNat n) ≠ d) {c : Char} (hascii : c.toNat < 128)
    (hc : c ≠ d) : d ∉ [f c] := by
  have hne := hf c.toNat hascii fun he => hc (Char.toNat_inj.1 he)
  rw [Char.ofNat_toNat] at hne
  simpa using hne.symm

theorem brace_notMem_upperChar {c : Char} (hc : c ≠ '\x7b') : '\x7b' ∉ upperChar c := by
  unfold upperChar
  split
  · rename_i hascii
    exact notMem_ascii (by decide +kernel) hascii hc
  · exact notMem_mapCase (by decide) (by decide +kernel) (by decide +kernel) hc

theorem brace_notMem_lowerChar {c : Char} (hc : c ≠ '\x7b') : '\x7b' ∉ lowerChar c := by
  unfold lowerChar
  split
  · rename_i hascii
    exact notMem_ascii (by decide +kernel) hascii hc
  · exact notMem_mapCase (by decide) (by decide +kernel) (by decide +kernel) hc

/-! ### Texts without a brace -/

variable {cs : List Char}

theorem brace_notMem_upperText (h : '\x7b' ∉ cs) : '\x7b' ∉ upperText cs := by
  intro hmem
  obtain ⟨c, hc, himage⟩ := List.mem_flatMap.1 hmem
  exact brace_notMem_upperChar (fun he => h (he ▸ hc)) himage

theorem brace_notMem_lowerAfter (before : List Char) (h : '\x7b' ∉ cs) :
    '\x7b' ∉ lowerAfter before cs := by
  induction cs generalizing before with
  | nil => simp [lowerAfter]
  | cons c cs ih =>
    obtain ⟨hc, hcs⟩ := List.ne_and_not_mem_of_not_mem_cons h
    rw [lowerAfter, List.mem_append, not_or]
    refine ⟨?_, ih _ hcs⟩
    split
    · split <;> decide
    · exact brace_notMem_lowerChar hc.symm

theorem brace_notMem_capitalizeChars (h : '\x7b' ∉ cs) : '\x7b' ∉ Transform.capitalizeChars cs := by
  cases cs with
  | nil => exact h
  | cons c cs =>
    obtain ⟨hc, hcs⟩ := List.ne_and_not_mem_of_not_mem_cons h
    rw [Transform.capitalizeChars, List.mem_append, not_or]
    exact ⟨brace_notMem_upperChar hc.symm, hcs⟩

theorem mem_joinWith {sep : List Char} {ps : List (List Char)} {d : Char}
    (h : d ∈ joinWith sep ps) : d ∈ sep ∨ ∃ p ∈ ps, d ∈ p := by
  fun_induction joinWith sep ps with
  | case1 => simp at h
  | case2 p => exact .inr ⟨p, List.mem_cons_self, h⟩
  | case3 p q ps ih =>
    rcases List.mem_append.1 h with h | h
    · rcases List.mem_append.1 h with h | h
      · exact .inr ⟨p, List.mem_cons_self, h⟩
      · exact .inl h
    · exact (ih h).imp_right fun ⟨p', hp', hd⟩ => ⟨p', List.mem_cons_of_mem _ hp', hd⟩

/-- No change of letter case brings in a brace. -/
theorem Transform.brace_notMem_applyChars (t : Transform) (h : '\x7b' ∉ cs) :
    '\x7b' ∉ t.applyChars cs := by
  cases t with
  | upper => exact brace_notMem_upperText h
  | lower => exact brace_notMem_lowerAfter [] h
  | capitalize => exact brace_notMem_capitalizeChars h
  | title =>
    intro hmem
    rcases mem_joinWith hmem with hsep | ⟨p, hp, hd⟩
    · exact absurd hsep (by decide)
    · obtain ⟨q, hq, rfl⟩ := List.mem_map.1 hp
      exact brace_notMem_capitalizeChars (fun hbrace => h (mem_of_mem_pieces hq hbrace)) hd

/-! ### Names with an ending -/

namespace Transform

theorem mem_all (t : Transform) : t ∈ all := by
  cases t <;> decide

/-- No ending is the end of another one. -/
theorem eq_of_ending_suffix {t u : Transform} (h : u.ending <:+ t.ending) : u = t := by
  cases t <;> cases u <;> first | rfl | exact absurd h (by decide)

theorem stripEnding?_eq_none {ending cs : List Char} (h : ¬ ending <:+ cs) :
    stripEnding? ending cs = none :=
  if_neg (mt List.isSuffixOf_iff_suffix.1 h)

theorem stripEnding?_append (base ending : List Char) :
    stripEnding? ending (base ++ ending) = some base := by
  unfold stripEnding?
  rw [if_pos (List.isSuffixOf_iff_suffix.2 (List.suffix_append base ending)), List.length_append,
    Nat.add_sub_cancel, List.take_left]

theorem stripEnding?_append_of_ne {t u : Transform} (h : u ≠ t) (base : List Char) :
    stripEnding? u.ending (base ++ t.ending) = none := by
  refine stripEnding?_eq_none fun hsuffix => ?_
  rcases List.suffix_or_suffix_of_suffix hsuffix (List.suffix_append base t.ending) with hut | htu
  · exact h (eq_of_ending_suffix hut)
  · exact h (eq_of_ending_suffix htu).symm

/-- A change as it is written at the end of a name. -/
def suffix (t : Transform) : String :=
  "_" ++ t.word

theorem toList_suffix (t : Transform) : t.suffix.toList = t.ending := by
  cases t <;> rfl

theorem split?_append_suffix (base : String) (t : Transform) :
    split? (base ++ t.suffix) = some (base, t) := by
  have hname : (base ++ t.suffix).toList = base.toList ++ t.ending := by
    rw [String.toList_append, toList_suffix]
  obtain ⟨before, after, hall, hnew⟩ := List.eq_append_cons_of_mem t.mem_all
  unfold split?
  rw [hname, hall, List.findSome?_eq_some_iff]
  refine ⟨before, t, after, rfl, ?_, fun u hu => ?_⟩
  · rw [stripEnding?_append, Option.map_some, String.ofList_toList]
  · have hne : u ≠ t := fun he => hnew (he ▸ hu)
    rw [stripEnding?_append_of_ne hne, Option.map_none]

theorem split?_eq_none {name : String} (h : ∀ t : Transform, ¬ t.ending <:+ name.toList) :
    split? name = none := by
  unfold split?
  refine List.findSome?_eq_none_iff.2 fun t _ => ?_
  rw [stripEnding?_eq_none (h t), Option.map_none]

theorem ofWord?_word (t : Transform) : ofWord? t.word = some t := by
  cases t <;> decide

end Transform

end Phrasebook.Text
