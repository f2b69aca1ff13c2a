/-!
# Texts with tokens

`tokens` cuts a text into single characters and tokens, from left to right and without overlap.
`sources_tokens` says that nothing is lost: the pieces in order make up the text.
-/

namespace Phrasebook.Text

/-- A character that stands for itself, or a token with the text it is written as. -/
inductive Piece (τ : Type) where
  | char (c : Char)
  | token (t : τ) (source : List Char)

/-- The text of a piece. -/
def Piece.source {τ : Type} : Piece τ → List Char
  | .char c => [c]
  | .token _ source => source

/-- The pieces of a text after `skip` characters that belong to a token before it. At the start of a
token, `token?` gives the token and its length. -/
def piecesFrom {τ : Type} (token? : List Char → Option (τ × Nat)) :
    Nat → List Char → List (Piece τ)
  | _, [] => []
  | skip + 1, _ :: cs => piecesFrom token? skip cs
  | 0, c :: cs =>
    match token? (c :: cs) with
    | some (t, n + 1) => .token t (c :: cs.take n) :: piecesFrom token? n cs
    | _ => .char c :: piecesFrom token? 0 cs

/-- The characters and tokens of a text. -/
def tokens {τ : Type} (token? : List Char → Option (τ × Nat)) (cs : List Char) :
    List (Piece τ) :=
  piecesFrom token? 0 cs

/-- The text with each token replaced, or left as written where it has no replacement. -/
def replaceTokens {τ : Type} (token? : List Char → Option (τ × Nat))
    (replacement : τ → Option (List Char)) (cs : List Char) : List Char :=
  (tokens token? cs).flatMap fun
    | .char c => [c]
    | .token t source => (replacement t).getD source

theorem sources_piecesFrom {τ : Type} (token? : List Char → Option (τ × Nat)) (skip : Nat)
    (cs : List Char) : (piecesFrom token? skip cs).flatMap Piece.source = cs.drop skip := by
  induction cs generalizing skip with
  | nil => simp [piecesFrom]
  | cons c cs ih =>
    cases skip with
    | succ skip => simp [piecesFrom, ih]
    | zero =>
      unfold piecesFrom
      split
      · rename_i t n _
        simp [Piece.source, ih, List.take_append_drop]
      · simp [Piece.source, ih]

/-- Nothing is lost. -/
theorem sources_tokens {τ : Type} (token? : List Char → Option (τ × Nat)) (cs : List Char) :
    (tokens token? cs).flatMap Piece.source = cs := by
  simp [tokens, sources_piecesFrom]

end Phrasebook.Text
