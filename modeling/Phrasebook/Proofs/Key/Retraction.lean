import Mathlib.Data.List.Destutter
import Phrasebook.Proofs.Key.Canonical

/-!
# The canonical form as a retraction

`IsCanonical` says what a canonical key looks like, without the way to get there. Collapsing runs is
`List.destutter`, and trimming takes an unbroken part of what is left, in which no new run can
arise: `normalize_retraction` says that every text is taken to a canonical key and that exactly the
canonical keys stay as they are.
-/

namespace Phrasebook

namespace Text

variable {p : Char → Bool} {cs : List Char}

theorem trimBy_infix (p : Char → Bool) (cs : List Char) : trimBy p cs <:+: cs :=
  (List.rdropWhile_prefix p _).isInfix.trans (List.dropWhile_suffix p).isInfix

theorem filter_dropWhile_not (p : Char → Bool) (cs : List Char) :
    (cs.dropWhile p).filter (! p ·) = cs.filter (! p ·) := by
  have hfront : (cs.takeWhile p).filter (! p ·) = [] := by
    refine List.filter_eq_nil_iff.2 fun c hc => ?_
    simp [List.mem_takeWhile_imp hc]
  calc (cs.dropWhile p).filter (! p ·)
      = (cs.takeWhile p ++ cs.dropWhile p).filter (! p ·) := by
        rw [List.filter_append, hfront, List.nil_append]
    _ = cs.filter (! p ·) := by rw [List.takeWhile_append_dropWhile]

/-- Only characters of the class are trimmed. -/
theorem filter_trimBy (p : Char → Bool) (cs : List Char) :
    (trimBy p cs).filter (! p ·) = cs.filter (! p ·) := by
  unfold trimBy
  rw [List.filter_reverse, filter_dropWhile_not, ← List.filter_reverse, List.reverse_reverse,
    filter_dropWhile_not]

end Text

namespace Key

variable {cs : List Char}

/-- Two characters that may stand next to each other in a canonical key. -/
def Apart (c d : Char) : Prop :=
  ¬ (isSeparator c = true ∧ c = d)

instance : DecidableRel Apart := fun c d => inferInstanceAs (Decidable (¬ (_ ∧ c = d)))

/-- No separator twice in a row, no separator or blank at either end. -/
structure IsCanonical (cs : List Char) : Prop where
  apart : cs.IsChain Apart
  front : ∀ c ∈ cs.head?, isMargin c = false
  back : ∀ c ∈ cs.getLast?, isMargin c = false

theorem collapse_eq_destutter (cs : List Char) : collapse cs = cs.destutter Apart := by
  cases cs with
  | nil => rfl
  | cons c cs =>
    rw [List.destutter_cons']
    induction cs generalizing c with
    | nil => rfl
    | cons d cs ih =>
      by_cases hrun : isSeparator c = true ∧ c = d
      · obtain rfl := hrun.2
        rw [collapse, if_pos hrun, List.destutter'_cons_neg _ (not_not.2 hrun), ih]
      · rw [collapse, if_neg hrun, List.destutter'_cons_pos _ hrun, ih]

theorem isChain_collapse (cs : List Char) : (collapse cs).IsChain Apart := by
  rw [collapse_eq_destutter]
  exact List.isChain_destutter Apart cs

theorem collapse_eq_self_iff : collapse cs = cs ↔ cs.IsChain Apart := by
  rw [collapse_eq_destutter]
  exact List.destutter_eq_self_iff Apart cs

theorem isCanonical_canonical (cs : List Char) : IsCanonical (canonical cs) where
  apart := List.IsChain.infix (isChain_collapse cs) (Text.trimBy_infix isMargin _)
  front := Text.head_trimBy isMargin _
  back := Text.getLast_trimBy isMargin _

theorem canonical_eq_self_iff_isCanonical : canonical cs = cs ↔ IsCanonical cs := by
  rw [canonical_eq_self_iff, collapse_eq_self_iff]
  exact ⟨fun ⟨ha, hf, hb⟩ => ⟨ha, hf, hb⟩, fun h => ⟨h.apart, h.front, h.back⟩⟩

theorem canonical_sublist (cs : List Char) : (canonical cs).Sublist cs :=
  (Text.trimBy_sublist isMargin _).trans (collapse_sublist cs)

theorem filter_collapse (cs : List Char) :
    (collapse cs).filter (! isMargin ·) = cs.filter (! isMargin ·) := by
  fun_induction collapse cs with
  | case1 => rfl
  | case2 c => rfl
  | case3 c d cs hrun ih =>
    have hc : isMargin c = true := by rw [isMargin, hrun.1, Bool.true_or]
    rw [ih, List.filter_cons_of_neg (a := c) (by simp [hc])]
  | case4 c d cs hrun ih => rw [List.filter_cons, List.filter_cons (x := c), ih]

/-- Everything but separators and blanks is kept. -/
theorem filter_canonical (cs : List Char) :
    (canonical cs).filter (! isMargin ·) = cs.filter (! isMargin ·) := by
  rw [canonical, Text.filter_trimBy, filter_collapse]

theorem toList_normalize (key : String) : (normalize key).toList = canonical key.toList :=
  String.toList_ofList

theorem normalize_eq_self_iff {key : String} : normalize key = key ↔ IsCanonical key.toList := by
  rw [← canonical_eq_self_iff_isCanonical, ← toList_normalize, String.toList_inj]

theorem isCanonical_normalize (key : String) : IsCanonical (normalize key).toList := by
  rw [toList_normalize]
  exact isCanonical_canonical _

theorem normalize_normalize (key : String) : normalize (normalize key) = normalize key :=
  normalize_eq_self_iff.2 (isCanonical_normalize key)

theorem parse_normalize (default : Option String) (locale key : String) :
    parse default locale (normalize key) = parse default locale key := by
  refine parse_congr default locale ?_
  rw [← toList_normalize, normalize_normalize, toList_normalize]

/-- The canonical form is canonical, comes about by leaving out separators and blanks only, and is
the text itself exactly if that is canonical. A key and its canonical form are read alike. -/
theorem normalize_retraction (key : String) :
    IsCanonical (normalize key).toList ∧
      (normalize key).toList.Sublist key.toList ∧
      (normalize key).toList.filter (! isMargin ·) = key.toList.filter (! isMargin ·) ∧
      (normalize key = key ↔ IsCanonical key.toList) ∧
      normalize (normalize key) = normalize key ∧
      ∀ default locale, parse default locale key = parse default locale (normalize key) := by
  refine ⟨isCanonical_normalize key, ?_, ?_, normalize_eq_self_iff, normalize_normalize key,
    fun default locale => (parse_normalize default locale key).symm⟩
  · rw [toList_normalize]
    exact canonical_sublist _
  · rw [toList_normalize]
    exact filter_canonical _

/-- Separators of two kinds may stand next to each other. -/
example : normalize " ::home::.hero..title. " = "home:.hero.title" := by decide +kernel

end Key

end Phrasebook
