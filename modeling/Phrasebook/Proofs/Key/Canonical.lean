import Mathlib.Data.List.DropRight
import Phrasebook.Proofs.Key.Written

/-!
# Keys in canonical form

A key is canonical if no separator stands twice in a row and neither end is a separator or blank.
Blank characters before a key make no difference, and an ending without separators stays at the end
of the name: `parse_blank_append` and `parse_append_ending`.
-/

namespace Phrasebook

namespace Text

variable {p : Char → Bool} {sep : Char} {a b cs : List Char}

theorem trimBy_sublist (p : Char → Bool) (cs : List Char) : (trimBy p cs).Sublist cs :=
  (List.rdropWhile_prefix p _).sublist.trans (List.dropWhile_sublist p)

theorem trimBy_append_of_forall (ha : ∀ c ∈ a, p c = true) : trimBy p (a ++ b) = trimBy p b := by
  unfold trimBy
  rw [List.dropWhile_append_of_pos ha]

theorem head_trimBy (p : Char → Bool) (cs : List Char) : ∀ c ∈ (trimBy p cs).head?, p c = false := by
  intro c hc
  obtain ⟨rest, hrest⟩ : trimBy p cs <+: cs.dropWhile p := List.rdropWhile_prefix p _
  obtain ⟨ds, hds⟩ := List.head?_eq_some_iff.1 hc
  have hdrop := List.head?_dropWhile_not p cs
  rw [← hrest, hds] at hdrop
  exact hdrop

theorem getLast_trimBy (p : Char → Bool) (cs : List Char) :
    ∀ c ∈ (trimBy p cs).getLast?, p c = false := by
  intro c hc
  have hdrop := List.head?_dropWhile_not p (cs.dropWhile p).reverse
  rw [trimBy, List.getLast?_reverse] at hc
  rw [hc] at hdrop
  exact hdrop

/-- Nothing is trimmed exactly where neither end is in the class. -/
theorem trimBy_eq_self_iff :
    trimBy p cs = cs ↔ (∀ c ∈ cs.head?, p c = false) ∧ ∀ c ∈ cs.getLast?, p c = false := by
  refine ⟨fun h => ?_, fun h => trimBy_eq_self h.1 h.2⟩
  rw [← h]
  exact ⟨head_trimBy p cs, getLast_trimBy p cs⟩

theorem cutFirst_append_right (hb : sep ∉ b) :
    cutFirst sep (a ++ b) = (cutFirst sep a).map fun (x, y) => (x, y ++ b) := by
  cases h : cutFirst sep a with
  | none => simpa [cutFirst_eq_none, hb] using cutFirst_eq_none.1 h
  | some xy =>
    obtain ⟨x, y⟩ := xy
    obtain ⟨rfl, hx⟩ := eq_append_of_cutFirst h
    rw [List.append_assoc, List.cons_append, cutFirst_append _ hx]
    rfl

theorem cutLast_append_right (hb : sep ∉ b) :
    cutLast sep (a ++ b) = (cutLast sep a).map fun (x, y) => (x, y ++ b) := by
  cases h : cutLast sep a with
  | none => simpa [cutLast_eq_none, hb] using cutLast_eq_none.1 h
  | some xy =>
    obtain ⟨x, y⟩ := xy
    obtain ⟨rfl, hy⟩ := eq_append_of_cutLast h
    rw [List.append_assoc, List.cons_append, cutLast_append _ (by simp [hy, hb])]
    rfl

/-- Without blank characters at the start. -/
def trimStart (s : String) : String :=
  String.ofList (s.toList.dropWhile isBlank)

theorem toList_trimStart (s : String) : (trimStart s).toList = s.toList.dropWhile isBlank :=
  String.toList_ofList

theorem head_trimStart (s : String) : ∀ c ∈ (trimStart s).toList.head?, isBlank c = false := by
  intro c hc
  have hdrop := List.head?_dropWhile_not isBlank s.toList
  rw [toList_trimStart] at hc
  rw [hc] at hdrop
  exact hdrop

/-- What is left out is blank. -/
theorem exists_blank_append_trimStart (s : String) :
    ∃ blank, (∀ c ∈ blank.toList, isBlank c = true) ∧ blank ++ trimStart s = s := by
  refine ⟨String.ofList (s.toList.takeWhile isBlank), fun c hc => ?_, ?_⟩
  · rw [String.toList_ofList] at hc
    exact List.mem_takeWhile_imp hc
  · rw [trimStart, ← String.ofList_append, List.takeWhile_append_dropWhile, String.ofList_toList]

theorem trimStart_eq_self_iff {s : String} :
    trimStart s = s ↔ ∀ c ∈ s.toList.head?, isBlank c = false := by
  refine ⟨fun h => ?_, fun h => ?_⟩
  · rw [← h]
    exact head_trimStart s
  · have hdrop : s.toList.dropWhile isBlank = s.toList := by
      cases hs : s.toList with
      | nil => rfl
      | cons c cs => rw [List.dropWhile_cons_of_neg (by simp [h c (by rw [hs]; rfl)])]
    rw [trimStart, hdrop, String.ofList_toList]

end Text

namespace Key

variable {a b cs : List Char}

theorem isSeparator_of_isBlank {c : Char} (h : Text.isBlank c = true) : isSeparator c = false := by
  cases hs : isSeparator c with
  | false => rfl
  | true =>
    simp only [isSeparator, Bool.or_eq_true, decide_eq_true_eq] at hs
    obtain rfl | rfl := hs <;> exact absurd h (by decide)

theorem isMargin_of_isBlank {c : Char} (h : Text.isBlank c = true) : isMargin c = true := by
  rw [isMargin, h, Bool.or_true]

theorem isSeparator_of_isMargin {c : Char} (h : isMargin c = false) : isSeparator c = false :=
  (Bool.or_eq_false_iff.1 h).1

theorem isBlank_of_isMargin {c : Char} (h : isMargin c = false) : Text.isBlank c = false :=
  (Bool.or_eq_false_iff.1 h).2

theorem collapse_sublist (cs : List Char) : (collapse cs).Sublist cs := by
  fun_induction collapse cs with
  | case1 => exact List.Sublist.refl _
  | case2 c => exact List.Sublist.refl _
  | case3 c d cs _ ih => exact ih.cons c
  | case4 c d cs _ ih => exact ih.cons_cons c

/-- A run of separators does not reach over characters of another kind. -/
theorem collapse_append_left (ha : ∀ c ∈ a, isSeparator c = false) (b : List Char) :
    collapse (a ++ b) = a ++ collapse b := by
  induction a with
  | nil => rfl
  | cons c cs ih =>
    have hrest := ih fun d hd => ha d (List.mem_cons_of_mem _ hd)
    have hc : isSeparator c = false := ha c List.mem_cons_self
    rw [List.cons_append, List.cons_append, ← hrest]
    cases cs ++ b with
    | nil => rfl
    | cons d ds => rw [collapse, if_neg (by simp [hc])]

theorem collapse_append_right (a : List Char) (hb : ∀ c ∈ b, isSeparator c = false) :
    collapse (a ++ b) = collapse a ++ b := by
  fun_induction collapse a with
  | case1 => exact collapse_eq_self hb
  | case2 c =>
    cases b with
    | nil => rfl
    | cons d ds =>
      have hrun : ¬ (isSeparator c = true ∧ c = d) := by
        rintro ⟨hc, rfl⟩
        rw [hb c List.mem_cons_self] at hc
        exact Bool.noConfusion hc
      rw [List.singleton_append, collapse, if_neg hrun, collapse_eq_self hb]
  | case3 c d cs hrun ih =>
    rw [List.cons_append, List.cons_append, collapse, if_pos hrun]
    exact ih
  | case4 c d cs hrun ih =>
    rw [List.cons_append, List.cons_append, collapse, if_neg hrun, List.cons_append]
    exact congrArg (c :: ·) ih

/-- A text is canonical exactly if nothing is collapsed and nothing is trimmed. -/
theorem canonical_eq_self_iff :
    canonical cs = cs ↔ collapse cs = cs ∧
      (∀ c ∈ cs.head?, isMargin c = false) ∧ ∀ c ∈ cs.getLast?, isMargin c = false := by
  refine ⟨fun h => ?_, fun ⟨hc, ht⟩ => ?_⟩
  · have htrim := (Text.trimBy_sublist isMargin (collapse cs)).length_le
    have hlen := congrArg List.length h
    have hc : collapse cs = cs := by
      refine (collapse_sublist cs).eq_of_length_le ?_
      rw [canonical] at hlen
      omega
    rw [canonical, hc] at h
    exact ⟨hc, Text.trimBy_eq_self_iff.1 h⟩
  · rw [canonical, hc]
    exact Text.trimBy_eq_self_iff.2 ht

theorem canonical_of_normalize {key : String} (h : normalize key = key) :
    canonical key.toList = key.toList := by
  rw [← String.toList_ofList (l := canonical key.toList)]
  exact congrArg String.toList h

theorem canonical_blank_append (ha : ∀ c ∈ a, Text.isBlank c = true) (b : List Char) :
    canonical (a ++ b) = canonical b := by
  unfold canonical
  rw [collapse_append_left fun c hc => isSeparator_of_isBlank (ha c hc)]
  exact Text.trimBy_append_of_forall fun c hc => isMargin_of_isBlank (ha c hc)

/-- What is put at the end of a canonical text stays there, if nothing of it can be a margin. -/
theorem canonical_append_ending (ha : canonical a = a) (hb : ∀ c ∈ b, isMargin c = false) :
    canonical (a ++ b) = a ++ b := by
  obtain ⟨hcollapse, hfront, hback⟩ := canonical_eq_self_iff.1 ha
  refine canonical_eq_self_iff.2 ⟨?_, fun c hc => ?_, fun c hc => ?_⟩
  · rw [collapse_append_right a fun c hc => isSeparator_of_isMargin (hb c hc), hcollapse]
  · cases a with
    | nil => exact hb c (List.mem_of_mem_head? hc)
    | cons d ds => exact hfront c hc
  · rw [List.getLast?_append] at hc
    cases hlast : b.getLast? with
    | none =>
      rw [hlast] at hc
      exact hback c hc
    | some d =>
      rw [hlast] at hc
      obtain rfl : d = c := Option.some.inj hc
      exact hb d (List.mem_of_getLast? hlast)

theorem parse_congr (default : Option String) (locale : String) {key key' : String}
    (h : canonical key.toList = canonical key'.toList) :
    parse default locale key = parse default locale key' := by
  unfold parse
  rw [h]

/-- Blank characters before a key make no difference. -/
theorem parse_blank_append (default : Option String) (locale : String) {blank : String}
    (h : ∀ c ∈ blank.toList, Text.isBlank c = true) (key : String) :
    parse default locale (blank ++ key) = parse default locale key := by
  refine parse_congr default locale ?_
  rw [String.toList_append]
  exact canonical_blank_append h _

/-- A namespace that is written does not begin with a blank character. -/
theorem head_of_split? {space name : List Char} (h : split? (canonical cs) = some (space, name)) :
    ∀ c ∈ space.head?, Text.isBlank c = false := by
  have hmargin : ∀ c ∈ (canonical cs).head?, isMargin c = false := Text.head_trimBy _ _
  unfold split? at h
  split at h
  · rename_i before after hcut
    obtain ⟨rfl, rfl⟩ := Prod.mk.inj (Option.some.inj h)
    intro c hc
    rw [(Text.eq_append_of_cutLast hcut).1] at hmargin
    cases before with
    | nil => simp at hc
    | cons d ds =>
      have hd : isMargin d = false := hmargin d rfl
      have hcolon : d ≠ ':' := by
        rintro rfl
        exact absurd hd (by decide)
      obtain rfl : d = c := by simpa [hcolon] using hc
      exact isBlank_of_isMargin hd
  · rw [(Text.eq_append_of_cutFirst h).1] at hmargin
    intro c hc
    refine isBlank_of_isMargin (hmargin c ?_)
    rw [List.head?_append, hc]
    rfl

theorem split?_append_right (a : List Char) (hb : ∀ c ∈ b, isSeparator c = false) :
    split? (a ++ b) = (split? a).map fun (space, name) => (space, name ++ b) := by
  have hmem : ∀ sep, isSeparator sep = true → sep ∉ b := by
    intro sep hs hmem
    rw [hb sep hmem] at hs
    exact Bool.noConfusion hs
  unfold split?
  rw [Text.cutLast_append_right (hmem ':' rfl)]
  cases Text.cutLast ':' a with
  | some xy => rfl
  | none => exact Text.cutFirst_append_right (hmem '.' rfl)

/-- An ending without separators belongs to the name. -/
theorem parse_append_ending (default : Option String) (locale : String) {key ending : String}
    (hkey : normalize key = key) (hending : ∀ c ∈ ending.toList, isMargin c = false) :
    parse default locale (key ++ ending) =
      { parse default locale key with name := (parse default locale key).name ++ ending } := by
  have hcanonical := canonical_of_normalize hkey
  have hs : ∀ c ∈ ending.toList, isSeparator c = false := fun c hc =>
    isSeparator_of_isMargin (hending c hc)
  unfold parse
  dsimp only
  rw [String.toList_append, canonical_append_ending hcanonical hending, hcanonical,
    split?_append_right _ hs]
  cases split? key.toList with
  | some xy => simp [String.ofList_append]
  | none => simp [String.ofList_append]

end Key

end Phrasebook
