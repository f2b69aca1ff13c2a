import Phrasebook.Text.Token

/-!
# Replacing tokens at the start of a text

`replaceTokens_char` and `replaceTokens_token` are the recursion of `replaceTokens`: over a
character that begins no token, and over a token.
-/

namespace Phrasebook.Text

variable {τ : Type} {token? : List Char → Option (τ × Nat)} {f : τ → Option (List Char)}

theorem piecesFrom_drop (skip : Nat) (cs : List Char) :
    piecesFrom token? skip cs = piecesFrom token? 0 (cs.drop skip) := by
  induction cs generalizing skip with
  | nil => rw [List.drop_nil, piecesFrom, piecesFrom]
  | cons c cs ih =>
    cases skip with
    | zero => rfl
    | succ skip => rw [piecesFrom, List.drop_succ_cons, ih]

theorem replaceTokens_char {c : Char} {cs : List Char} (h : token? (c :: cs) = none) :
    replaceTokens token? f (c :: cs) = c :: replaceTokens token? f cs := by
  unfold replaceTokens tokens
  rw [piecesFrom, h]
  rfl

/-- Characters that begin no token stay. -/
theorem replaceTokens_append {cs : List Char}
    (h : ∀ c ∈ cs, ∀ rest, token? (c :: rest) = none) (rest : List Char) :
    replaceTokens token? f (cs ++ rest) = cs ++ replaceTokens token? f rest := by
  induction cs with
  | nil => rfl
  | cons c cs ih =>
    rw [List.cons_append, replaceTokens_char (h c List.mem_cons_self _),
      ih fun d hd => h d (List.mem_cons_of_mem _ hd)]
    rfl

theorem replaceTokens_token {t : τ} {source rest : List Char} (hne : source ≠ [])
    (h : token? (source ++ rest) = some (t, source.length)) :
    replaceTokens token? f (source ++ rest) = (f t).getD source ++ replaceTokens token? f rest := by
  obtain ⟨c, cs, rfl⟩ := List.exists_cons_of_ne_nil hne
  unfold replaceTokens tokens
  rw [List.cons_append] at h ⊢
  rw [piecesFrom, h]
  dsimp only [List.length_cons]
  rw [piecesFrom_drop, List.drop_left, List.take_left]
  rfl

/-- The pieces of two texts are found apart if no token goes over the character between them. -/
theorem replaceTokens_append_stop {c : Char} (hc : ∀ rest, token? (c :: rest) = none)
    (hstop : ∀ d cs rest, token? (d :: (cs ++ c :: rest)) = token? (d :: cs))
    (hsource : ∀ cs t n, token? cs = some (t, n) →
      ∃ source rest, cs = source ++ rest ∧ source.length = n ∧ source ≠ [])
    (cs rest : List Char) :
    replaceTokens token? f (cs ++ c :: rest) =
      replaceTokens token? f cs ++ c :: replaceTokens token? f rest := by
  -- on the length, since a token is passed in one step
  induction hn : cs.length using Nat.strongRecOn generalizing cs with
  | ind n ih =>
    subst hn
    cases cs with
    | nil =>
      rw [List.nil_append, replaceTokens_char (hc rest)]
      rfl
    | cons d cs =>
      cases ht : token? (d :: cs) with
      | none =>
        rw [List.cons_append, replaceTokens_char ((hstop d cs rest).trans ht),
          replaceTokens_char ht, ih cs.length (by simp) cs rfl, List.cons_append]
      | some found =>
        obtain ⟨t, n⟩ := found
        have ht' := (hstop d cs rest).trans ht
        obtain ⟨source, after, htext, rfl, hne⟩ := hsource _ _ _ ht
        have hshort : after.length < (d :: cs).length := by
          have hpos := List.length_pos_iff.2 hne
          rw [htext, List.length_append]
          omega
        rw [← List.cons_append, htext, List.append_assoc] at ht'
        rw [htext] at ht
        rw [htext, List.append_assoc, replaceTokens_token hne ht', replaceTokens_token hne ht,
          ih after.length hshort after rfl, List.append_assoc]

theorem mem_of_mem_source {piece : Piece τ} {cs : List Char} {c : Char}
    (h : piece ∈ tokens token? cs) (hc : c ∈ piece.source) : c ∈ cs := by
  have hmem : c ∈ (tokens token? cs).flatMap Piece.source := List.mem_flatMap.2 ⟨piece, h, hc⟩
  rwa [sources_tokens] at hmem

/-- A character of the outcome was in the text, or is one of a replacement. -/
theorem mem_replaceTokens {cs : List Char} {c : Char} (h : c ∈ replaceTokens token? f cs) :
    c ∈ cs ∨ ∃ t text, f t = some text ∧ c ∈ text := by
  obtain ⟨piece, hpiece, hc⟩ := List.mem_flatMap.1 h
  cases piece with
  | char d => exact .inl (mem_of_mem_source hpiece hc)
  | token t source =>
    dsimp only at hc
    cases htext : f t with
    | none =>
      rw [htext] at hc
      exact .inl (mem_of_mem_source hpiece hc)
    | some text =>
      rw [htext] at hc
      exact .inr ⟨t, text, htext, hc⟩

theorem flatMap_pieces_congr {g h : Piece τ → List Char} {cs : List Char}
    (hg : ∀ piece ∈ tokens token? cs, g piece = h piece) :
    (tokens token? cs).flatMap g = (tokens token? cs).flatMap h := by
  rw [List.flatMap_def, List.flatMap_def, List.map_congr_left hg]

/-- Where no token has a replacement, the text stays. -/
theorem replaceTokens_eq_self {cs : List Char}
    (h : ∀ t source, Piece.token t source ∈ tokens token? cs → f t = none) :
    replaceTokens token? f cs = cs := by
  calc replaceTokens token? f cs = (tokens token? cs).flatMap Piece.source := by
        refine flatMap_pieces_congr fun piece hpiece => ?_
        cases piece with
        | char c => rfl
        | token t source =>
          dsimp only
          rw [h t source hpiece]
          rfl
    _ = cs := sources_tokens token? cs

/-- Rewriting each character of the outcome, where only replacements have others than themselves. -/
theorem flatMap_replaceTokens {g : Char → List Char} {f' : τ → Option (List Char)}
    {cs : List Char} (hchar : ∀ c ∈ cs, g c = [c])
    (htoken : ∀ t source, Piece.token t source ∈ tokens token? cs →
      ((f t).getD source).flatMap g = (f' t).getD source) :
    (replaceTokens token? f cs).flatMap g = replaceTokens token? f' cs := by
  unfold replaceTokens
  rw [List.flatMap_assoc]
  refine flatMap_pieces_congr fun piece hpiece => ?_
  cases piece with
  | char c =>
    have hc : c ∈ cs := mem_of_mem_source hpiece List.mem_cons_self
    exact (List.flatMap_singleton g c).trans (hchar c hc)
  | token t source => exact htoken t source hpiece

/-- A token is read where it stands. -/
theorem read_of_mem_tokens {t : τ} {source cs : List Char}
    (h : Piece.token t source ∈ tokens token? cs) :
    ∃ front rest n, cs = front ++ rest ∧ token? rest = some (t, n) ∧ source = rest.take n := by
  have within : ∀ skip cs, Piece.token t source ∈ piecesFrom token? skip cs →
      ∃ front rest n, cs = front ++ rest ∧ token? rest = some (t, n) ∧ source = rest.take n := by
    intro skip cs hmem
    induction cs generalizing skip with
    | nil => simp [piecesFrom] at hmem
    | cons c cs ih =>
      have later : ∀ skip, Piece.token t source ∈ piecesFrom token? skip cs →
          ∃ front rest n, c :: cs = front ++ rest ∧ token? rest = some (t, n) ∧
            source = rest.take n := by
        intro skip hmem
        obtain ⟨front, rest, n, rfl, hread⟩ := ih skip hmem
        exact ⟨c :: front, rest, n, rfl, hread⟩
      cases skip with
      | succ skip => exact later skip (by rwa [piecesFrom] at hmem)
      | zero =>
        unfold piecesFrom at hmem
        split at hmem
        · rename_i t' n hread
          rcases List.mem_cons.1 hmem with he | hmem
          · obtain ⟨rfl, rfl⟩ := Piece.token.inj he
            exact ⟨[], c :: cs, n + 1, rfl, hread, rfl⟩
          · exact later n hmem
        · rcases List.mem_cons.1 hmem with he | hmem
          · cases he
          · exact later 0 hmem
  exact within 0 cs h

end Phrasebook.Text
