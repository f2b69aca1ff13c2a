import Phrasebook.Proofs.Icu.Sweep

/-!
# Clauses as they are written

A balanced text closes the braces that it opens, so the search for a closing brace passes over it.
`clauses_of_clause?` is the recursion of `clauses` without fuel, `clauses_clauseText` reads written
clauses back, and `numberBody_clauses` and `textBody_clauses` say that which clause is picked does not
depend on the bodies.
-/

namespace Phrasebook.Icu

/-- No brace is in the text. -/
def NoBrace (cs : List Char) : Prop :=
  ∀ c ∈ cs, c ≠ '\x7b' ∧ c ≠ '\x7d'

theorem NoBrace.append {a b : List Char} (ha : NoBrace a) (hb : NoBrace b) : NoBrace (a ++ b) := by
  intro c hc
  exact (List.mem_append.1 hc).elim (ha c) (hb c)

theorem NoBrace.cons {c : Char} {a : List Char} (ho : c ≠ '\x7b') (hc : c ≠ '\x7d')
    (ha : NoBrace a) : NoBrace (c :: a) := by
  intro d hd
  rcases List.mem_cons.1 hd with rfl | hd
  · exact ⟨ho, hc⟩
  · exact ha d hd

theorem NoBrace.notMem {a : List Char} (h : NoBrace a) : '\x7b' ∉ a :=
  fun hmem => (h _ hmem).1 rfl

/-! ### Balanced texts -/

theorem closing_open (depth : Nat) (cs : List Char) :
    closing depth ('\x7b' :: cs) =
      (closing (depth + 1) cs).map fun (a, b) => ('\x7b' :: a, b) := by
  cases depth <;> simp [closing]

theorem closing_close (depth : Nat) (cs : List Char) :
    closing (depth + 1) ('\x7d' :: cs) = (closing depth cs).map fun (a, b) => ('\x7d' :: a, b) := by
  simp [closing]

theorem closing_end (cs : List Char) : closing 0 ('\x7d' :: cs) = some ([], cs) := by
  simp [closing]

theorem closing_of_ne {c : Char} (ho : c ≠ '\x7b') (hc : c ≠ '\x7d') (depth : Nat)
    (cs : List Char) :
    closing depth (c :: cs) = (closing depth cs).map fun (a, b) => (c :: a, b) := by
  cases depth <;> simp [closing, ho, hc]

/-- The search for a closing brace passes over the text. -/
def Balanced (cs : List Char) : Prop :=
  ∀ depth rest, closing depth (cs ++ rest) = (closing depth rest).map fun (a, b) => (cs ++ a, b)

namespace Balanced

variable {a b : List Char}

theorem nil : Balanced [] := by
  intro depth rest
  cases h : closing depth rest <;> simp [h]

theorem append (ha : Balanced a) (hb : Balanced b) : Balanced (a ++ b) := by
  intro depth rest
  rw [List.append_assoc, ha, hb, Option.map_map]
  congr 1
  funext p
  simp

theorem cons {c : Char} (ho : c ≠ '\x7b') (hc : c ≠ '\x7d') (ha : Balanced a) :
    Balanced (c :: a) := by
  intro depth rest
  rw [List.cons_append, closing_of_ne ho hc, ha, Option.map_map]
  rfl

theorem of_noBrace (h : NoBrace a) : Balanced a := by
  induction a with
  | nil => exact nil
  | cons c a ih =>
    have hc := h c List.mem_cons_self
    exact cons hc.1 hc.2 (ih fun d hd => h d (List.mem_cons_of_mem _ hd))

theorem braces (ha : Balanced a) : Balanced ('\x7b' :: a ++ ['\x7d']) := by
  intro depth rest
  rw [List.cons_append, List.cons_append, List.append_assoc, closing_open, ha,
    List.cons_append, List.nil_append, closing_close, Option.map_map, Option.map_map]
  congr 1
  funext p
  simp

theorem closing_eq (ha : Balanced a) (rest : List Char) :
    closing 0 (a ++ '\x7d' :: rest) = some (a, rest) := by
  rw [ha, closing_end]
  simp

end Balanced

/-! ### Written clauses -/

theorem isSelectorChar_of_isSelector {s : List Char} (h : isSelector s = true) :
    s.all isSelectorChar = true := by
  simp only [isSelector, Bool.and_eq_true, List.all_eq_true] at h
  simp only [List.all_eq_true]
  intro c hc
  have hs := h.2 c hc
  simp only [Bool.not_eq_true', bne_iff_ne, ne_eq] at hs
  have hblank : Text.isAsciiBlank c = false := by
    cases hb : Text.isAsciiBlank c with
    | false => rfl
    | true => rw [Text.isBlank_of_isAsciiBlank hb] at hs; simp at hs
  simp [isSelectorChar, hs.1.1.2, hblank]

theorem noBrace_of_isSelector {s : List Char} (h : isSelector s = true) : NoBrace s := by
  simp only [isSelector, Bool.and_eq_true, List.all_eq_true] at h
  intro c hc
  have hchar := h.2 c hc
  simp only [bne_iff_ne, ne_eq] at hchar
  exact ⟨hchar.1.1.2, hchar.1.2⟩

theorem ne_nil_of_isSelector {s : List Char} (h : isSelector s = true) : s ≠ [] := by
  rintro rfl
  simp [isSelector] at h

/-- A selector and a balanced body, with blanks around the selector, are read as a clause. -/
theorem clause?_written {b s m body : List Char} (hb : b.all Text.isAsciiBlank = true)
    (hn : s ≠ []) (hs : s.all isSelectorChar = true) (hm : m.all Text.isAsciiBlank = true)
    (hbody : Balanced body) (rest : List Char) :
    clause? (b ++ s ++ m ++ '\x7b' :: body ++ '\x7d' :: rest) = some (⟨s, body⟩, rest) := by
  have hend : ∀ t, (m ++ '\x7b' :: t).takeWhile isSelectorChar = [] ∧
      (m ++ '\x7b' :: t).dropWhile isSelectorChar = m ++ '\x7b' :: t := by
    intro t
    cases m with
    | nil => exact ⟨rfl, rfl⟩
    | cons c cs =>
      have hc : isSelectorChar c = false := by
        simp only [List.all_cons, Bool.and_eq_true] at hm
        simp [isSelectorChar, hm.1]
      simp [hc]
  obtain ⟨c, cs, rfl⟩ := List.exists_cons_of_ne_nil hn
  have hstart : ∀ t, ((c :: cs) ++ t).dropWhile Text.isAsciiBlank = (c :: cs) ++ t := by
    intro t
    have hc : Text.isAsciiBlank c = false := by
      simp only [List.all_cons, Bool.and_eq_true, isSelectorChar, Bool.not_eq_true'] at hs
      exact hs.1.2
    rw [List.cons_append, List.dropWhile_cons_of_neg (by simp [hc])]
  unfold clause?
  simp only [List.append_assoc, List.cons_append]
  rw [List.dropWhile_append_of_pos (by simpa using hb), ← List.cons_append, hstart,
    List.takeWhile_append_of_pos (by simpa using hs),
    List.dropWhile_append_of_pos (by simpa using hs), (hend _).1, (hend _).2,
    List.dropWhile_append_of_pos (by simpa using hm), List.append_nil,
    List.dropWhile_cons_of_neg (by decide)]
  show Option.map _ (closing 0 (body ++ '\x7d' :: rest)) = _
  rw [hbody.closing_eq]
  rfl

/-! ### Clauses one by one -/

theorem length_of_clause? {cs rest : List Char} {c : Clause} (h : clause? cs = some (c, rest)) :
    rest.length < cs.length := by
  obtain ⟨front, after, rfl, hclose⟩ := clause?_split h
  rw [closing_eq hclose]
  simp only [List.length_append, List.length_cons]
  omega

/-- As much fuel as characters is enough. -/
theorem clausesWithin_congr {n k : Nat} {cs : List Char} (hn : cs.length ≤ n)
    (hk : cs.length ≤ k) : clausesWithin n cs = clausesWithin k cs := by
  induction n generalizing k cs with
  | zero =>
    obtain rfl := List.length_eq_zero_iff.1 (Nat.le_zero.1 hn)
    cases k <;> rfl
  | succ n ih =>
    cases hc : clause? cs with
    | none => cases k <;> simp [clausesWithin, hc]
    | some found =>
      obtain ⟨c, rest⟩ := found
      have hlt := length_of_clause? hc
      obtain ⟨k, rfl⟩ : ∃ m, k = m + 1 := ⟨k - 1, by omega⟩
      rw [clausesWithin, clausesWithin, hc]
      exact congrArg (c :: ·) (ih (by omega) (by omega))

theorem clauses_of_clause? {cs rest : List Char} {c : Clause} (h : clause? cs = some (c, rest)) :
    clauses cs = c :: clauses rest := by
  have hlt := length_of_clause? h
  obtain ⟨n, hn⟩ : ∃ n, cs.length = n + 1 := ⟨cs.length - 1, by omega⟩
  unfold clauses
  rw [hn, clausesWithin, h]
  exact congrArg (c :: ·) (clausesWithin_congr (by omega) (Nat.le_refl _))

theorem clauses_of_none {cs : List Char} (h : clause? cs = none) : clauses cs = [] := by
  unfold clauses
  cases cs.length with
  | zero => rfl
  | succ n => rw [clausesWithin, h]

/-- Blanks in front of clauses make no difference. -/
theorem clauses_blanks {b : List Char} (hb : b.all Text.isAsciiBlank = true) (cs : List Char) :
    clauses (b ++ cs) = clauses cs := by
  have hclause : clause? (b ++ cs) = clause? cs := by
    unfold clause?
    rw [List.dropWhile_append_of_pos (by simpa using hb)]
  cases hc : clause? cs with
  | none => rw [clauses_of_none hc, clauses_of_none (hclause.trans hc)]
  | some found => rw [clauses_of_clause? hc, clauses_of_clause? (hclause.trans hc)]

/-- Clauses as they stand in a pattern. -/
def clauseText (cs : List Clause) : List Char :=
  cs.flatMap fun c => ' ' :: c.selector ++ ' ' :: '\x7b' :: c.body ++ ['\x7d']

theorem clauseText_cons (c : Clause) (cs : List Clause) :
    clauseText (c :: cs) =
      ' ' :: (c.selector ++ ' ' :: '\x7b' :: (c.body ++ '\x7d' :: clauseText cs)) := by
  simp [clauseText]

/-- Clauses that are read back as they are written. -/
def Written (cs : List Clause) : Prop :=
  ∀ c ∈ cs, isSelector c.selector = true ∧ Balanced c.body

theorem Written.cons {c : Clause} {cs : List Clause} (h : Written (c :: cs)) :
    (isSelector c.selector = true ∧ Balanced c.body) ∧ Written cs :=
  ⟨h c List.mem_cons_self, fun d hd => h d (List.mem_cons_of_mem _ hd)⟩

theorem balanced_clause {c : Clause} (hs : isSelector c.selector = true) (hb : Balanced c.body)
    {rest : List Char} (hr : Balanced rest) :
    Balanced (c.selector ++ ' ' :: '\x7b' :: (c.body ++ '\x7d' :: rest)) := by
  have hblank : NoBrace [' '] := by simp [NoBrace]
  have hsel : Balanced (c.selector ++ [' ']) :=
    .of_noBrace ((noBrace_of_isSelector hs).append hblank)
  have hall := (hsel.append hb.braces).append hr
  simpa using hall

theorem balanced_clauseText {cs : List Clause} (h : Written cs) : Balanced (clauseText cs) := by
  induction cs with
  | nil => exact Balanced.nil
  | cons c cs ih =>
    obtain ⟨hc, hcs⟩ := h.cons
    rw [clauseText_cons]
    exact (balanced_clause hc.1 hc.2 (ih hcs)).cons (by decide) (by decide)

theorem balanced_clauseText_tail {cs : List Clause} (h : Written cs) :
    Balanced (clauseText cs).tail := by
  cases cs with
  | nil => exact Balanced.nil
  | cons c cs =>
    obtain ⟨hc, hcs⟩ := h.cons
    rw [clauseText_cons]
    exact balanced_clause hc.1 hc.2 (balanced_clauseText hcs)

theorem dropWhile_clauseText {cs : List Clause} (h : ∀ c ∈ cs, isSelector c.selector = true)
    {x : Char} (hx : Text.isBlank x = false) (rest : List Char) :
    (clauseText cs ++ x :: rest).dropWhile Text.isBlank = (clauseText cs).tail ++ x :: rest := by
  cases cs with
  | nil => simp [clauseText, hx]
  | cons c cs =>
    have hs := h c List.mem_cons_self
    obtain ⟨y, ys, hy⟩ := List.exists_cons_of_ne_nil (ne_nil_of_isSelector hs)
    have hblank : Text.isBlank y = false := by
      simp only [isSelector, hy, List.all_cons, Bool.and_eq_true, Bool.not_eq_true'] at hs
      exact hs.2.1.1.1.1
    rw [clauseText_cons, hy, List.cons_append, List.dropWhile_cons_of_pos (by decide),
      List.cons_append, List.cons_append, List.dropWhile_cons_of_neg (by simp [hblank])]
    rfl

theorem clauses_clauseText {cs : List Clause} (h : Written cs) :
    clauses (clauseText cs).tail = cs := by
  have hspace : [' '].all Text.isAsciiBlank = true := rfl
  induction cs with
  | nil => rfl
  | cons c cs ih =>
    obtain ⟨⟨hs, hb⟩, hcs⟩ := h.cons
    have hread := clause?_written (b := []) rfl (ne_nil_of_isSelector hs)
      (isSelectorChar_of_isSelector hs) hspace hb (clauseText cs)
    have htext : (clauseText (c :: cs)).tail =
        [] ++ c.selector ++ [' '] ++ '\x7b' :: c.body ++ '\x7d' :: clauseText cs := by
      simp [clauseText_cons]
    have hrest : clauses (clauseText cs) = clauses (clauseText cs).tail := by
      cases cs with
      | nil => rfl
      | cons d ds =>
        rw [clauseText_cons]
        exact clauses_blanks hspace _
    rw [htext, clauses_of_clause? hread, hrest, ih hcs]

/-! ### Which clause is picked -/

/-- The clauses with other bodies. -/
def Arms.clauses (f : Message → List Char) (arms : Arms) : List Clause :=
  arms.map fun a => ⟨a.1, f a.2⟩

/-- The arm for an exact count, else for the category, else for the rest. -/
def Arms.forNumber (category : Category) (count : Float) (arms : Arms) :
    Option (List Char × Message) :=
  ((arms.find? fun a => namesCount count a.1).or
    (arms.find? fun a => a.1 == category.keyword.toList)).or
    (arms.find? fun a => a.1 == Category.other.keyword.toList)

/-- The arm for a text, else for the rest. -/
def Arms.forText (text : String) (arms : Arms) : Option (List Char × Message) :=
  (arms.find? fun a => a.1 == text.toList).or
    (arms.find? fun a => a.1 == Category.other.keyword.toList)

theorem bodyWhere_clauses (p : List Char → Bool) (f : Message → List Char) (arms : Arms) :
    bodyWhere p (arms.clauses f) = (arms.find? fun a => p a.1).map fun a => f a.2 := by
  unfold bodyWhere Arms.clauses
  rw [List.find?_map, Option.map_map]
  rfl

theorem numberBody_clauses (category : Category) (count : Float) (f : Message → List Char)
    (arms : Arms) :
    numberBody category count (arms.clauses f) =
      (arms.forNumber category count).map fun a => f a.2 := by
  unfold numberBody Arms.forNumber bodyOf
  rw [bodyWhere_clauses, bodyWhere_clauses, bodyWhere_clauses, Option.map_or, Option.map_or]

theorem textBody_clauses (text : String) (f : Message → List Char) (arms : Arms) :
    (bodyOf text.toList (arms.clauses f)).or
        (bodyOf Category.other.keyword.toList (arms.clauses f)) =
      (arms.forText text).map fun a => f a.2 := by
  unfold Arms.forText bodyOf
  rw [bodyWhere_clauses, bodyWhere_clauses, Option.map_or]

theorem Arms.mem_of_forNumber {category : Category} {count : Float} {arms : Arms}
    {a : List Char × Message} (h : arms.forNumber category count = some a) : a ∈ arms := by
  rcases Option.or_eq_some_iff.1 h with h | ⟨-, h⟩
  · rcases Option.or_eq_some_iff.1 h with h | ⟨-, h⟩
    · exact List.mem_of_find?_eq_some h
    · exact List.mem_of_find?_eq_some h
  · exact List.mem_of_find?_eq_some h

theorem Arms.mem_of_forText {text : String} {arms : Arms} {a : List Char × Message}
    (h : arms.forText text = some a) : a ∈ arms := by
  rcases Option.or_eq_some_iff.1 h with h | ⟨-, h⟩
  · exact List.mem_of_find?_eq_some h
  · exact List.mem_of_find?_eq_some h

end Phrasebook.Icu
