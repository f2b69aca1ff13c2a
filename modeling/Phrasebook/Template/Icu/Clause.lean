import Phrasebook.Text.Blank

/-!
# Clauses

The options of a pattern are clauses: a selector and a body between braces. `closing` finds the
brace that ends a body, `clauses` reads clauses up to the first that is malformed.
-/

namespace Phrasebook.Icu

/-- A selector and the body it selects. -/
structure Clause where
  selector : List Char
  body : List Char
  deriving DecidableEq, Repr

/-- The texts before and after the brace that closes the innermost of `depth + 1` open ones, when
all `depth` braces opened after it are closed before. -/
def closing : Nat → List Char → Option (List Char × List Char)
  | _, [] => none
  | depth, c :: cs =>
    if c = '\x7b' then (closing (depth + 1) cs).map fun (a, b) => (c :: a, b)
    else if c = '\x7d' then
      match depth with
      | 0 => some ([], cs)
      | depth + 1 => (closing depth cs).map fun (a, b) => (c :: a, b)
    else (closing depth cs).map fun (a, b) => (c :: a, b)

/-- Whether the character may be part of a selector. -/
def isSelectorChar (c : Char) : Bool :=
  c != '\x7b' && !Text.isAsciiBlank c

/-- A clause at the start of the text, after blanks, and the text after it. -/
def clause? (cs : List Char) : Option (Clause × List Char) :=
  let cs := cs.dropWhile Text.isAsciiBlank
  let selector := cs.takeWhile isSelectorChar
  match selector, (cs.dropWhile isSelectorChar).dropWhile Text.isAsciiBlank with
  | _ :: _, '\x7b' :: rest => (closing 0 rest).map fun (body, after) => (⟨selector, body⟩, after)
  | _, _ => none

/-- At most `fuel` clauses from the start of the text. -/
def clausesWithin : Nat → List Char → List Clause
  | 0, _ => []
  | fuel + 1, cs =>
    match clause? cs with
    | some (c, rest) => c :: clausesWithin fuel rest
    | none => []

/-- The clauses of a text, up to the first that is malformed. -/
def clauses (cs : List Char) : List Clause :=
  clausesWithin cs.length cs

/-- The body of the first clause whose selector passes. -/
def bodyWhere (p : List Char → Bool) (cs : List Clause) : Option (List Char) :=
  (cs.find? fun c => p c.selector).map (·.body)

/-- The body of the first clause with this selector. -/
def bodyOf (selector : List Char) (cs : List Clause) : Option (List Char) :=
  bodyWhere (· == selector) cs

theorem closing_eq {depth : Nat} {cs a b : List Char} (h : closing depth cs = some (a, b)) :
    cs = a ++ '\x7d' :: b := by
  induction cs generalizing depth a b with
  | nil => simp [closing] at h
  | cons c cs ih =>
    unfold closing at h
    split at h
    · obtain ⟨⟨a', b'⟩, hc, he⟩ := Option.map_eq_some_iff.1 h
      simp only [Prod.mk.injEq] at he
      obtain ⟨rfl, rfl⟩ := he
      rw [ih hc]; rfl
    · split at h
      · rename_i hb
        split at h
        · simp only [Option.some.injEq, Prod.mk.injEq] at h
          obtain ⟨rfl, rfl⟩ := h
          rw [hb]; rfl
        · obtain ⟨⟨a', b'⟩, hc, he⟩ := Option.map_eq_some_iff.1 h
          simp only [Prod.mk.injEq] at he
          obtain ⟨rfl, rfl⟩ := he
          rw [ih hc]; rfl
      · obtain ⟨⟨a', b'⟩, hc, he⟩ := Option.map_eq_some_iff.1 h
        simp only [Prod.mk.injEq] at he
        obtain ⟨rfl, rfl⟩ := he
        rw [ih hc]; rfl

end Phrasebook.Icu
