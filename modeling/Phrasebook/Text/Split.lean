/-!
# Splitting texts at a character

`cutFirst` and `cutLast` split a text in two at one occurrence of a separator, `pieces` at every
occurrence. `replaceAll` exchanges every occurrence of a pattern, from left to right.
-/

namespace Phrasebook.Text

/-- The texts before and after the first `sep`. -/
def cutFirst (sep : Char) : List Char → Option (List Char × List Char)
  | [] => none
  | c :: cs => if c = sep then some ([], cs) else (cutFirst sep cs).map fun (a, b) => (c :: a, b)

/-- The texts before and after the last `sep`. -/
def cutLast (sep : Char) : List Char → Option (List Char × List Char)
  | [] => none
  | c :: cs =>
    match cutLast sep cs with
    | some (a, b) => some (c :: a, b)
    | none => if c = sep then some ([], cs) else none

/-- The parts between the occurrences of a separator; a text without one is its only part. -/
def piecesBy (isSep : Char → Bool) : List Char → List (List Char)
  | [] => [[]]
  | c :: cs =>
    if isSep c then [] :: piecesBy isSep cs
    else match piecesBy isSep cs with
      | [] => [[c]]
      | p :: ps => (c :: p) :: ps

/-- The parts between the occurrences of `sep`. -/
def pieces (sep : Char) : List Char → List (List Char) :=
  piecesBy (· == sep)

/-- The texts with `sep` between each two neighbours. -/
def joinWith (sep : List Char) : List (List Char) → List Char
  | [] => []
  | [p] => p
  | p :: q :: ps => p ++ sep ++ joinWith sep (q :: ps)

/-- Copies the text, except that the next `skip` characters are left out and each occurrence of
`pattern` after them becomes `replacement`. -/
def replaceFrom (pattern replacement : List Char) : Nat → List Char → List Char
  | _, [] => []
  | skip + 1, _ :: cs => replaceFrom pattern replacement skip cs
  | 0, c :: cs =>
    if pattern.isPrefixOf (c :: cs) then
      replacement ++ replaceFrom pattern replacement (pattern.length - 1) cs
    else c :: replaceFrom pattern replacement 0 cs

/-- Each occurrence of the non-empty `pattern`, read from the left, becomes `replacement`. -/
def replaceAll (pattern replacement text : String) : String :=
  String.ofList (replaceFrom pattern.toList replacement.toList 0 text.toList)

theorem eq_append_of_cutFirst {sep : Char} {cs a b : List Char}
    (h : cutFirst sep cs = some (a, b)) : cs = a ++ sep :: b ∧ sep ∉ a := by
  induction cs generalizing a with
  | nil => simp [cutFirst] at h
  | cons c cs ih =>
    by_cases hc : c = sep
    · simp [cutFirst, hc] at h
      simp [hc, h.1, h.2]
    · simp only [cutFirst, hc, if_false, Option.map_eq_some_iff, Prod.mk.injEq] at h
      obtain ⟨⟨a', b'⟩, ha, rfl, rfl⟩ := h
      obtain ⟨rfl, hn⟩ := ih ha
      exact ⟨rfl, by simp [Ne.symm hc, hn]⟩

theorem cutFirst_eq_none {sep : Char} {cs : List Char} :
    cutFirst sep cs = none ↔ sep ∉ cs := by
  induction cs with
  | nil => simp [cutFirst]
  | cons c cs ih =>
    by_cases hc : c = sep
    · simp [cutFirst, hc]
    · simp [cutFirst, hc, ih, Ne.symm hc]

theorem cutLast_eq_none {sep : Char} {cs : List Char} :
    cutLast sep cs = none ↔ sep ∉ cs := by
  induction cs with
  | nil => simp [cutLast]
  | cons c cs ih =>
    by_cases hc : c = sep
    · cases h : cutLast sep cs <;> simp [cutLast, h, hc]
    · cases h : cutLast sep cs with
      | none => simp [cutLast, h, hc, Ne.symm hc, ih.1 h]
      | some p =>
        have : sep ∈ cs := by
          have := mt ih.2 (by simp [h])
          simpa using this
        simp [cutLast, h, this]

theorem eq_append_of_cutLast {sep : Char} {cs a b : List Char}
    (h : cutLast sep cs = some (a, b)) : cs = a ++ sep :: b ∧ sep ∉ b := by
  induction cs generalizing a b with
  | nil => simp [cutLast] at h
  | cons c cs ih =>
    unfold cutLast at h
    split at h
    · rename_i he
      simp only [Option.some.injEq, Prod.mk.injEq] at h
      obtain ⟨rfl, rfl⟩ := h
      obtain ⟨rfl, hn⟩ := ih he
      exact ⟨rfl, hn⟩
    · rename_i he
      split at h
      · rename_i hc
        simp only [Option.some.injEq, Prod.mk.injEq] at h
        obtain ⟨rfl, rfl⟩ := h
        exact ⟨by simp [hc], cutLast_eq_none.1 he⟩
      · simp at h

end Phrasebook.Text
