import Phrasebook.Proofs.Key.Placement

/-!
# The two halves of a key

Parsing cuts the canonical form of a key in two, at the last colon or else at the first point.
`halves_parse` says that nothing is lost at the cut and that neither half is empty, because a
canonical key has no separator at either end. So the name is empty only where nothing is left of the
key: `name_parse_eq_empty_iff`.
-/

namespace Phrasebook

namespace Key

/-- The canonical key `text` is cut into the namespace and the name of `k`. -/
structure Halves (default : Option String) (locale text : String) (k : Key) : Prop where
  colon : ':' ∈ text.toList → ∃ before, before ≠ "" ∧ text = before ++ ":" ++ k.name ∧
    k.name ≠ "" ∧ ':' ∉ k.name.toList ∧
    k.space = String.ofList (before.toList.map fun c => if c = ':' then '/' else c)
  point : ':' ∉ text.toList → '.' ∈ text.toList → text = k.space ++ "." ++ k.name ∧
    k.space ≠ "" ∧ k.name ≠ "" ∧ '.' ∉ k.space.toList
  bare : ':' ∉ text.toList → '.' ∉ text.toList → k.name = text ∧ k.space = default.getD locale

variable {cs a b : List Char} {sep : Char}

/-- No separator of a canonical text stands at an end. -/
theorem IsCanonical.ne_nil (h : IsCanonical (a ++ sep :: b)) (hs : isSeparator sep = true) :
    a ≠ [] ∧ b ≠ [] := by
  refine ⟨?_, ?_⟩
  · rintro rfl
    exact ne_of_isMargin hs (h.front sep rfl) rfl
  · rintro rfl
    refine ne_of_isMargin hs (h.back sep ?_) rfl
    rw [List.getLast?_append]
    rfl

theorem ofList_append_cons (a : List Char) (sep : Char) (b : List Char) :
    String.ofList (a ++ sep :: b) = String.ofList a ++ String.singleton sep ++ String.ofList b := by
  rw [← String.toList_inj]
  simp

theorem split?_of_colon (h : ':' ∈ cs) :
    ∃ before name, cs = before ++ ':' :: name ∧ ':' ∉ name ∧
      split? cs = some (before.map fun c => if c = ':' then '/' else c, name) := by
  cases hcut : Text.cutLast ':' cs with
  | none => exact absurd h (Text.cutLast_eq_none.1 hcut)
  | some halves =>
    obtain ⟨before, name⟩ := halves
    obtain ⟨htext, hname⟩ := Text.eq_append_of_cutLast hcut
    refine ⟨before, name, htext, hname, ?_⟩
    unfold split?
    rw [hcut]

theorem split?_of_no_colon (h : ':' ∉ cs) : split? cs = Text.cutFirst '.' cs := by
  unfold split?
  rw [Text.cutLast_eq_none.2 h]

variable {key : String} {space name : List Char}

theorem parse_of_split? (default : Option String) (locale : String)
    (h : split? (canonical key.toList) = some (space, name)) :
    parse default locale key = ⟨String.ofList space, String.ofList name⟩ := by
  unfold parse
  dsimp only
  rw [h]

theorem parse_of_split?_eq_none (default : Option String) (locale : String)
    (h : split? (canonical key.toList) = none) :
    parse default locale key = ⟨default.getD locale, normalize key⟩ := by
  unfold parse
  dsimp only
  rw [h]
  rfl

theorem halves_parse (default : Option String) (locale key : String) :
    Halves default locale (normalize key) (parse default locale key) := by
  have hcanonical : IsCanonical (canonical key.toList) := isCanonical_canonical _
  refine ⟨fun hcolon => ?_, fun hcolon hpoint => ?_, fun hcolon hpoint => ?_⟩
  all_goals rw [toList_normalize] at hcolon
  · obtain ⟨before, name, hcut, hname, hsplit⟩ := split?_of_colon hcolon
    rw [hcut] at hcanonical
    obtain ⟨hbefore, hne⟩ := hcanonical.ne_nil rfl
    rw [parse_of_split? _ _ hsplit, normalize, hcut]
    refine ⟨String.ofList before, mt String.ofList_eq_empty_iff.1 hbefore,
      ofList_append_cons before ':' name, mt String.ofList_eq_empty_iff.1 hne, ?_, ?_⟩
    · rw [String.toList_ofList]
      exact hname
    · rw [String.toList_ofList]
  · rw [toList_normalize] at hpoint
    cases hsplit : Text.cutFirst '.' (canonical key.toList) with
    | none => exact absurd hpoint (Text.cutFirst_eq_none.1 hsplit)
    | some halves =>
      obtain ⟨space, name⟩ := halves
      obtain ⟨hcut, hspace⟩ := Text.eq_append_of_cutFirst hsplit
      rw [← split?_of_no_colon hcolon] at hsplit
      rw [hcut] at hcanonical
      obtain ⟨hbefore, hne⟩ := hcanonical.ne_nil rfl
      rw [parse_of_split? _ _ hsplit, normalize, hcut]
      refine ⟨ofList_append_cons space '.' name, mt String.ofList_eq_empty_iff.1 hbefore,
        mt String.ofList_eq_empty_iff.1 hne, ?_⟩
      rw [String.toList_ofList]
      exact hspace
  · rw [toList_normalize] at hpoint
    have hsplit := (split?_of_no_colon hcolon).trans (Text.cutFirst_eq_none.2 hpoint)
    rw [parse_of_split?_eq_none _ _ hsplit]
    exact ⟨rfl, rfl⟩

theorem Halves.name_eq_empty_iff {default : Option String} {locale text : String} {k : Key}
    (h : Halves default locale text k) : k.name = "" ↔ text = "" := by
  by_cases hcolon : ':' ∈ text.toList
  · obtain ⟨-, -, -, hname, -⟩ := h.colon hcolon
    refine iff_of_false hname ?_
    rintro rfl
    simp at hcolon
  · by_cases hpoint : '.' ∈ text.toList
    · refine iff_of_false (h.point hcolon hpoint).2.2.1 ?_
      rintro rfl
      simp at hpoint
    · rw [(h.bare hcolon hpoint).1]

theorem name_parse_eq_empty_iff (default : Option String) (locale key : String) :
    (parse default locale key).name = "" ↔ normalize key = "" :=
  (halves_parse default locale key).name_eq_empty_iff

/-- A colon divides the key even where a point stands before it. -/
example : parse none "en" " home..hero::cta.label " = ⟨"home.hero", "cta.label"⟩ := by
  decide +kernel

end Key

end Phrasebook
