import Mathlib.Data.List.Chain
import Phrasebook.Text.Split

/-!
# The pieces of a text

`pieces` is `List.splitOn`, so that the pieces with separators between them make up the text again.
Where no two separators are neighbours and none is at the end, only the first piece can be empty:
`nil_mem_pieces_iff`.
-/

namespace Phrasebook.Text

variable {sep : Char} {p cs : List Char}

theorem piecesBy_eq_splitOnP (isSep : Char → Bool) (cs : List Char) :
    piecesBy isSep cs = cs.splitOnP isSep := by
  induction cs with
  | nil => rfl
  | cons c cs ih =>
    rw [piecesBy, List.splitOnP_cons_eq_if_modifyHead, ih]
    split
    · rfl
    · obtain ⟨q, qs, hq⟩ := List.exists_cons_of_ne_nil (List.splitOnP_ne_nil isSep cs)
      rw [hq]
      rfl

/-- Texts with the same characters, separators aside, have the same pieces. -/
theorem piecesBy_congr {isSep : Char → Bool} {a b : List Char}
    (h : List.Forall₂ (fun c d => c = d ∨ isSep c = true ∧ isSep d = true) a b) :
    piecesBy isSep a = piecesBy isSep b := by
  induction h with
  | nil => rfl
  | cons hhead _ ih =>
    rw [piecesBy, piecesBy, ih]
    rcases hhead with rfl | ⟨hc, hd⟩
    · rfl
    · rw [if_pos hc, if_pos hd]

theorem pieces_eq_splitOn (sep : Char) (cs : List Char) : pieces sep cs = cs.splitOn sep :=
  piecesBy_eq_splitOnP _ cs

theorem pieces_ne_nil (sep : Char) (cs : List Char) : pieces sep cs ≠ [] := by
  rw [pieces_eq_splitOn]
  exact List.splitOn_ne_nil sep cs

theorem intercalate_pieces (sep : Char) (cs : List Char) :
    [sep].intercalate (pieces sep cs) = cs := by
  rw [pieces_eq_splitOn, List.intercalate_splitOn]

theorem pieces_append_sep (sep : Char) (a b : List Char) :
    pieces sep (a ++ sep :: b) = pieces sep a ++ pieces sep b := by
  simp only [pieces_eq_splitOn, List.splitOn_append_cons_self]

/-- Texts without the separator are read back from the text that they make up. -/
theorem pieces_intercalate {ps : List (List Char)} (hne : ps ≠ []) (hp : ∀ p ∈ ps, sep ∉ p) :
    pieces sep ([sep].intercalate ps) = ps := by
  rw [pieces_eq_splitOn, List.splitOn_intercalate _ hp hne]

theorem pieces_of_mem (h : sep ∈ cs) : ∃ p q ps, pieces sep cs = p :: q :: ps := by
  obtain ⟨a, b, rfl⟩ := List.append_of_mem h
  obtain ⟨p, ps, hp⟩ := List.exists_cons_of_ne_nil (pieces_ne_nil sep a)
  obtain ⟨q, qs, hq⟩ := List.exists_cons_of_ne_nil (pieces_ne_nil sep b)
  rw [pieces_append_sep, hp, hq]
  cases ps with
  | nil => exact ⟨p, q, qs, rfl⟩
  | cons r rs => exact ⟨p, r, rs ++ q :: qs, rfl⟩

theorem pieces_cons_sep (sep : Char) (cs : List Char) :
    pieces sep (sep :: cs) = [] :: pieces sep cs :=
  pieces_append_sep sep [] cs

theorem pieces_cons_of_ne {c : Char} (hc : c ≠ sep) (cs : List Char) :
    ∃ q qs, pieces sep cs = q :: qs ∧ pieces sep (c :: cs) = (c :: q) :: qs := by
  obtain ⟨q, qs, hq⟩ := List.exists_cons_of_ne_nil (pieces_ne_nil sep cs)
  refine ⟨q, qs, hq, ?_⟩
  unfold pieces at hq ⊢
  rw [piecesBy, if_neg (by simpa using hc), hq]

theorem head?_piecesBy (isSep : Char → Bool) (cs : List Char) :
    (piecesBy isSep cs).head? = some (cs.takeWhile (!isSep ·)) := by
  induction cs with
  | nil => rfl
  | cons c cs ih =>
    rw [piecesBy]
    by_cases hc : isSep c = true
    · rw [if_pos hc, List.takeWhile_cons_of_neg (by simpa using hc)]
      rfl
    · have hne : piecesBy isSep cs ≠ [] := by
        rw [piecesBy_eq_splitOnP]
        exact List.splitOnP_ne_nil isSep cs
      obtain ⟨p, ps, hp⟩ := List.exists_cons_of_ne_nil hne
      rw [hp] at ih
      rw [if_neg hc, hp, List.takeWhile_cons_of_pos (by simpa using hc), ← Option.some.inj ih]
      rfl

theorem head?_pieces (sep : Char) (cs : List Char) :
    (pieces sep cs).head? = some (cs.takeWhile (· != sep)) :=
  head?_piecesBy (· == sep) cs

theorem notMem_of_mem_pieces (h : p ∈ pieces sep cs) : sep ∉ p := by
  induction cs generalizing p with
  | nil =>
    rw [List.mem_singleton.1 h]
    exact List.not_mem_nil
  | cons c cs ih =>
    by_cases hc : c = sep
    · subst hc
      rw [pieces_cons_sep] at h
      rcases List.mem_cons.1 h with rfl | h
      · exact List.not_mem_nil
      · exact ih h
    · obtain ⟨q, qs, hq, hcons⟩ := pieces_cons_of_ne hc cs
      rw [hq] at ih
      rw [hcons] at h
      rcases List.mem_cons.1 h with rfl | h
      · have hsep := ih List.mem_cons_self
        simp [Ne.symm hc, hsep]
      · exact ih (List.mem_cons_of_mem _ h)

theorem infix_intercalate {ps : List (List Char)} (h : p ∈ ps) (between : List Char) :
    p <:+: between.intercalate ps := by
  induction ps with
  | nil => simp at h
  | cons q qs ih =>
    rcases List.mem_cons.1 h with rfl | h
    · cases qs with
      | nil => simp
      | cons r rs =>
        rw [List.intercalate_cons_cons, List.append_assoc]
        exact (List.prefix_append _ _).isInfix
    · rw [List.intercalate_cons_of_ne_nil (List.ne_nil_of_mem h)]
      exact (ih h).trans (List.suffix_append _ _).isInfix

/-- A piece is an unbroken part of the text. -/
theorem infix_of_mem_pieces (h : p ∈ pieces sep cs) : p <:+: cs := by
  have hinfix := infix_intercalate h [sep]
  rwa [intercalate_pieces] at hinfix

theorem mem_of_mem_pieces {d : Char} (hp : p ∈ pieces sep cs) (hd : d ∈ p) : d ∈ cs :=
  (infix_of_mem_pieces hp).subset hd

section Lone

variable (hlone : cs.IsChain fun c d => ¬ (c = sep ∧ d = sep)) (hback : ∀ c ∈ cs.getLast?, c ≠ sep)

include hlone hback

theorem nil_notMem_tail_pieces : [] ∉ (pieces sep cs).tail := by
  induction cs with
  | nil => exact List.not_mem_nil
  | cons c cs ih =>
    have hrest : [] ∉ (pieces sep cs).tail := by
      refine ih hlone.tail fun d hd => hback d ?_
      rw [List.getLast?_cons, hd]
      rfl
    by_cases hc : c = sep
    · subst hc
      -- the next piece begins behind a separator, so with another character
      have hhead : ∀ d ∈ cs.head?, d ≠ c := fun d hd he =>
        (List.isChain_cons.1 hlone).1 d hd ⟨rfl, he⟩
      cases cs with
      | nil => exact absurd rfl (hback c rfl)
      | cons d ds =>
        obtain ⟨q, qs, -, hcons⟩ := pieces_cons_of_ne (hhead d rfl) ds
        rw [hcons] at hrest
        rw [pieces_cons_sep, hcons]
        simpa using hrest
    · obtain ⟨q, qs, hq, hcons⟩ := pieces_cons_of_ne hc cs
      rw [hq] at hrest
      rw [hcons]
      exact hrest

theorem nil_mem_pieces_iff : [] ∈ pieces sep cs ↔ cs = [] ∨ cs.head? = some sep := by
  have htail := nil_notMem_tail_pieces hlone hback
  obtain ⟨q, qs, hq⟩ := List.exists_cons_of_ne_nil (pieces_ne_nil sep cs)
  have hhead := head?_pieces sep cs
  rw [hq] at htail hhead ⊢
  rw [List.tail_cons] at htail
  rw [List.mem_cons, or_iff_left htail, Option.some.inj hhead]
  cases cs with
  | nil => simp
  | cons c cs =>
    by_cases hc : c = sep
    · simp [hc]
    · simp [hc]

end Lone

end Phrasebook.Text
