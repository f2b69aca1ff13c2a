import Mathlib.Algebra.Order.BigOperators.Group.List
import Mathlib.Algebra.Order.Group.Nat
import Phrasebook.Proofs.Text.Tokens
import Phrasebook.Template.Mustache

/-!
# Templates that stay as they are

A placeholder without a text stays as it is written, so a template without others does. The converse
takes a measure, since a text may spell the very placeholder it stands for: replacements that have
fewer of some character than what they replace leave fewer of it in the text.
-/

namespace Phrasebook

namespace Text

variable {τ : Type} {token? : List Char → Option (τ × Nat)} {f : τ → Option (List Char)}
  {cs : List Char} {c : Char}

theorem count_flatMap {α : Type} {g h : α → List Char} {xs : List α}
    (hle : ∀ x ∈ xs, (g x).count c ≤ (h x).count c) :
    (xs.flatMap g).count c ≤ (xs.flatMap h).count c ∧
      ∀ x ∈ xs, (g x).count c < (h x).count c →
        (xs.flatMap g).count c < (xs.flatMap h).count c := by
  rw [List.count_flatMap, List.count_flatMap]
  exact ⟨List.sum_le_sum hle, fun x hx hlt => List.sum_lt_sum _ _ hle ⟨x, hx, hlt⟩⟩

/-- If no replacement has more of a character than the token, the text does not get more of it, and
it gets less if one replacement has less. -/
theorem count_replaceTokens
    (h : ∀ t source, Piece.token t source ∈ tokens token? cs → ∀ text, f t = some text →
      text.count c ≤ source.count c) :
    (replaceTokens token? f cs).count c ≤ cs.count c ∧
      ∀ t source, Piece.token t source ∈ tokens token? cs → ∀ text, f t = some text →
        text.count c < source.count c → (replaceTokens token? f cs).count c < cs.count c := by
  have hcount : cs.count c = ((tokens token? cs).flatMap Piece.source).count c := by
    rw [sources_tokens]
  rw [hcount, replaceTokens]
  refine ⟨(count_flatMap ?pieces).1, fun t source hmem text htext hless =>
    (count_flatMap ?pieces).2 _ hmem ?_⟩
  case pieces =>
    intro piece hmem
    cases piece with
    | char d => exact Nat.le_refl _
    | token t source =>
      cases htext : f t with
      | none => simp [htext, Piece.source]
      | some text => simpa [htext, Piece.source] using h t source hmem text htext
  simpa [htext, Piece.source] using hless

/-- Nothing is replaced in a text that stays the same, if each replacement has fewer of some
character than the token. -/
theorem replaceTokens_eq_self_iff
    (h : ∀ t source, Piece.token t source ∈ tokens token? cs → ∀ text, f t = some text →
      text.count c < source.count c) :
    replaceTokens token? f cs = cs ↔
      ∀ t source, Piece.token t source ∈ tokens token? cs → f t = none := by
  refine ⟨fun hsame t source hmem => Option.eq_none_iff_forall_ne_some.2 fun text htext => ?_,
    replaceTokens_eq_self⟩
  have hcount := count_replaceTokens fun t source hmem text htext =>
    Nat.le_of_lt (h t source hmem text htext)
  have hless := hcount.2 t source hmem text htext (h t source hmem text htext)
  rw [hsame] at hless
  exact Nat.lt_irrefl _ hless

end Text

namespace Mustache

variable {escape : Bool} {vars : Vars} {cs : List Char}

/-- No placeholder of the template has a text. -/
def Inert (escape : Bool) (vars : Vars) (cs : List Char) : Prop :=
  ∀ path source, Text.Piece.token path source ∈ Text.tokens placeholder? cs →
    replacement escape vars path = none

/-- No text of a placeholder of the template has an opening brace. -/
def Braceless (escape : Bool) (vars : Vars) (cs : List Char) : Prop :=
  ∀ path source, Text.Piece.token path source ∈ Text.tokens placeholder? cs →
    ∀ text, replacement escape vars path = some text → '\x7b' ∉ text

theorem eq_append_of_placeholder? {path : List Char} {n : Nat}
    (h : placeholder? cs = some (path, n)) :
    n = path.length + 4 ∧ ∃ rest, cs = '\x7b' :: '\x7b' :: (path ++ '\x7d' :: '\x7d' :: rest) := by
  unfold placeholder? at h
  split at h
  · rename_i rest
    dsimp only at h
    split at h
    · rename_i c name after hpath hafter
      obtain ⟨rfl, rfl⟩ := Prod.mk.inj (Option.some.inj h)
      refine ⟨rfl, after, ?_⟩
      have htake : rest.takeWhile (· != '\x7d') <+: rest := List.takeWhile_prefix _
      rw [← hafter, List.prefix_iff_eq_append.1 htake]
    · simp at h
  · simp at h

/-- A placeholder is written with opening braces. -/
theorem brace_mem_of_mem_tokens {path source : List Char}
    (h : Text.Piece.token path source ∈ Text.tokens placeholder? cs) : '\x7b' ∈ source := by
  obtain ⟨front, rest, n, -, hread, rfl⟩ := Text.read_of_mem_tokens h
  obtain ⟨rfl, after, rfl⟩ := eq_append_of_placeholder? hread
  exact List.mem_cons_self

theorem renderChars_of_inert (h : Inert escape vars cs) : renderChars escape vars cs = cs :=
  Text.replaceTokens_eq_self h

theorem renderChars_eq_self_iff (h : Braceless escape vars cs) :
    renderChars escape vars cs = cs ↔ Inert escape vars cs := by
  refine Text.replaceTokens_eq_self_iff (c := '\x7b') fun path source hmem text htext => ?_
  rw [List.count_eq_zero.2 (h path source hmem text htext)]
  exact List.count_pos_iff.2 (brace_mem_of_mem_tokens hmem)

end Mustache

end Phrasebook
