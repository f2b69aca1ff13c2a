import Mathlib.Data.List.Infix
import Phrasebook.Proofs.Icu.Clauses

/-!
# Clauses with any blanks

`Layout` is a clause as a translator may write it: with blanks, or without, around the selector and
behind the closing brace. `Matched` is what its body must be, counted brace by brace, and
`clauses_layout` reads such clauses back in front of any text.
-/

namespace Phrasebook.Icu

/-! ### Matched braces -/

/-- No start of the text closes more braces than it opens, and the whole closes as many. -/
structure Matched (cs : List Char) : Prop where
  prefixes : ∀ front, front <+: cs → front.count '\x7d' ≤ front.count '\x7b'
  total : cs.count '\x7d' = cs.count '\x7b'

instance (cs : List Char) : Decidable (Matched cs) :=
  decidable_of_iff ((∀ front ∈ cs.inits, front.count '\x7d' ≤ front.count '\x7b') ∧
      cs.count '\x7d' = cs.count '\x7b')
    ⟨fun h => ⟨fun front hfront => h.1 front ((List.mem_inits front cs).2 hfront), h.2⟩,
      fun h => ⟨fun front hfront => h.prefixes front ((List.mem_inits front cs).1 hfront),
        h.total⟩⟩

/-- With `opened` braces before it, a text that never closes more than are open leaves `left` open. -/
theorem closing_append {opened left : Nat} {cs : List Char}
    (h : ∀ front, front <+: cs → front.count '\x7d' ≤ front.count '\x7b' + opened)
    (hleft : left + cs.count '\x7d' = opened + cs.count '\x7b') (depth : Nat) (rest : List Char) :
    closing (opened + depth) (cs ++ rest) =
      (closing (left + depth) rest).map fun (a, b) => (cs ++ a, b) := by
  induction cs generalizing opened with
  | nil =>
    obtain rfl : left = opened := by simpa using hleft
    cases hc : closing (left + depth) rest <;> simp [hc]
  | cons c cs ih =>
    have htail : ∀ front, front <+: cs →
        (c :: front).count '\x7d' ≤ (c :: front).count '\x7b' + opened :=
      fun front hfront => h _ (List.cons_prefix_cons.2 ⟨rfl, hfront⟩)
    by_cases ho : c = '\x7b'
    · subst ho
      have hprefix : ∀ front, front <+: cs →
          front.count '\x7d' ≤ front.count '\x7b' + (opened + 1) := by
        intro front hfront
        have hle := htail front hfront
        rw [List.count_cons_of_ne (by decide), List.count_cons_self] at hle
        omega
      have hcount : left + cs.count '\x7d' = opened + 1 + cs.count '\x7b' := by
        rw [List.count_cons_of_ne (by decide), List.count_cons_self] at hleft
        omega
      rw [List.cons_append, closing_open, Nat.add_right_comm, ih hprefix hcount, Option.map_map]
      rfl
    · by_cases hx : c = '\x7d'
      · subst hx
        obtain ⟨opened, rfl⟩ : ∃ n, opened = n + 1 := by
          have hle := htail [] List.nil_prefix
          rw [List.count_cons_self, List.count_cons_of_ne (by decide)] at hle
          exact ⟨opened - 1, by simp at hle; omega⟩
        have hprefix : ∀ front, front <+: cs →
            front.count '\x7d' ≤ front.count '\x7b' + opened := by
          intro front hfront
          have hle := htail front hfront
          rw [List.count_cons_self, List.count_cons_of_ne (by decide)] at hle
          omega
        have hcount : left + cs.count '\x7d' = opened + cs.count '\x7b' := by
          rw [List.count_cons_self, List.count_cons_of_ne (by decide)] at hleft
          omega
        rw [List.cons_append, Nat.add_right_comm, closing_close, ih hprefix hcount, Option.map_map]
        rfl
      · simp only [List.count_cons_of_ne hx, List.count_cons_of_ne ho] at htail hleft
        rw [List.cons_append, closing_of_ne ho hx, ih htail hleft, Option.map_map]
        rfl

theorem Matched.balanced {cs : List Char} (h : Matched cs) : Balanced cs := by
  intro depth rest
  have htotal : 0 + cs.count '\x7d' = 0 + cs.count '\x7b' := by rw [h.total]
  simpa using closing_append h.prefixes htotal depth rest

/-! ### Clauses as they may be written -/

/-- A clause with the blanks before its selector, behind the selector and behind its body. -/
structure Layout where
  clause : Clause
  before : List Char := []
  between : List Char := []
  after : List Char := []

/-- The text of the clause with its blanks. -/
def Layout.text (l : Layout) : List Char :=
  l.before ++ l.clause.selector ++ l.between ++ '\x7b' :: l.clause.body ++ '\x7d' :: l.after

/-- Whether the character may stand in a selector that is written without braces. -/
def isPlainSelectorChar (c : Char) : Bool :=
  !Text.isAsciiBlank c && c != '\x7b' && c != '\x7d'

/-- A selector with no blanks or braces, a body whose braces match, and blanks around them. -/
structure Layout.Proper (l : Layout) : Prop where
  selector_ne_nil : l.clause.selector ≠ []
  selector : l.clause.selector.all isPlainSelectorChar = true
  body : Matched l.clause.body
  before : l.before.all Text.isAsciiBlank = true
  between : l.between.all Text.isAsciiBlank = true
  after : l.after.all Text.isAsciiBlank = true

instance (l : Layout) : Decidable l.Proper :=
  decidable_of_iff (l.clause.selector ≠ [] ∧ l.clause.selector.all isPlainSelectorChar = true ∧
      Matched l.clause.body ∧ l.before.all Text.isAsciiBlank = true ∧
      l.between.all Text.isAsciiBlank = true ∧ l.after.all Text.isAsciiBlank = true)
    ⟨fun ⟨h₁, h₂, h₃, h₄, h₅, h₆⟩ => ⟨h₁, h₂, h₃, h₄, h₅, h₆⟩,
      fun ⟨h₁, h₂, h₃, h₄, h₅, h₆⟩ => ⟨h₁, h₂, h₃, h₄, h₅, h₆⟩⟩

theorem Layout.Proper.clause? {l : Layout} (h : l.Proper) (rest : List Char) :
    clause? (l.text ++ rest) = some (l.clause, l.after ++ rest) := by
  have hselector : l.clause.selector.all isSelectorChar = true := by
    refine List.all_eq_true.2 fun c hc => ?_
    have hplain := List.all_eq_true.1 h.selector c hc
    simp only [isPlainSelectorChar, Bool.and_eq_true] at hplain
    simp only [isSelectorChar, Bool.and_eq_true]
    exact ⟨hplain.1.2, hplain.1.1⟩
  have hread := clause?_written h.before h.selector_ne_nil hselector h.between h.body.balanced
    (l.after ++ rest)
  simpa [Layout.text] using hread

/-- Clauses are read back from their text, bodies as they were written, whatever blanks stand around
them. A text behind them changes none of them: what it holds itself comes after. -/
theorem clauses_layout {ls : List Layout} (h : ∀ l ∈ ls, l.Proper) :
    clauses (ls.flatMap Layout.text) = ls.map Layout.clause ∧
      ∀ more, clauses (ls.flatMap Layout.text ++ more) = ls.map Layout.clause ++ clauses more := by
  have hmore : ∀ more,
      clauses (ls.flatMap Layout.text ++ more) = ls.map Layout.clause ++ clauses more := by
    intro more
    induction ls with
    | nil => rfl
    | cons l ls ih =>
      obtain ⟨hl, hls⟩ := List.forall_mem_cons.1 h
      rw [List.flatMap_cons, List.append_assoc, clauses_of_clause? (hl.clause? _),
        clauses_blanks hl.after, ih hls]
      rfl
  refine ⟨?_, hmore⟩
  have hall := hmore []
  have hnone : clauses [] = [] := rfl
  rwa [List.append_nil, hnone, List.append_nil] at hall

/-- Clauses of a plural, the last one without a blank behind its selector. -/
def itemLayouts : List Layout :=
  [{ clause := ⟨"=0".toList, "none".toList⟩, before := [' '], between := [' '], after := [' '] },
    { clause := ⟨"one".toList, "# \x7bnested\x7d".toList⟩, between := [' ', '\n'] },
    { clause := ⟨"other".toList, "#".toList⟩ }]

/-- Clauses without blanks between them, in front of one that is not closed. -/
theorem clauses_layout_items :
    (∀ l ∈ itemLayouts, l.Proper) ∧
      String.ofList (itemLayouts.flatMap Layout.text) =
        " =0 \x7bnone\x7d one \n\x7b# \x7bnested\x7d\x7dother\x7b#\x7d" ∧
      clauses (itemLayouts.flatMap Layout.text ++ " few \x7b# \x7bitems\x7d".toList) =
        itemLayouts.map Layout.clause := by
  have hproper : ∀ l ∈ itemLayouts, l.Proper := by decide
  refine ⟨hproper, by decide, ?_⟩
  rw [(clauses_layout hproper).2]
  decide

end Phrasebook.Icu
