import Phrasebook.Plugin.Host
import Phrasebook.Plugin.NumberFormat
import Phrasebook.Proofs.Text.Casing

/-!
# Number tokens in a result

`NumberFormat.written` is what becomes of a result when its number tokens are written. A text
without a brace stays as it is, and so does what stands before the first brace.
-/

namespace Phrasebook

namespace NumberToken

variable {style : NumberStyle} {vars : Vars} {cs : List Char}

/-- The text with its number tokens written; `none` if one cannot be written. -/
def writeAll (style : NumberStyle) (vars : Vars) (cs : List Char) : Option (List Char) :=
  ((Text.tokens read? cs).mapM (writePiece style vars)).map List.flatten

theorem formatTokens_eq_writeAll (locale : String) (vars : Vars) (text : String) :
    formatTokens locale vars text =
      (writeAll (NumberStyle.of locale) vars text.toList).map String.ofList := by
  unfold formatTokens writeAll
  rw [Option.map_map]
  rfl

theorem read?_eq_none_of_ne {c : Char} (h : c ≠ '\x7b') (cs : List Char) :
    read? (c :: cs) = none := by
  unfold read?
  split
  · rename_i heq
    exact absurd (List.cons.inj heq).1 h
  · rfl

/-- A character that begins no token stays. -/
theorem writeAll_cons {c : Char} (h : read? (c :: cs) = none) :
    writeAll style vars (c :: cs) = (writeAll style vars cs).map (c :: ·) := by
  have htokens : Text.tokens read? (c :: cs) = .char c :: Text.tokens read? cs := by
    unfold Text.tokens
    rw [Text.piecesFrom, h]
  unfold writeAll
  rw [htokens, List.mapM_cons]
  cases (Text.tokens read? cs).mapM (writePiece style vars) <;> rfl

theorem writeAll_append {a : List Char} (h : '\x7b' ∉ a) (cs : List Char) :
    writeAll style vars (a ++ cs) = (writeAll style vars cs).map (a ++ ·) := by
  induction a with
  | nil => simp
  | cons c a ih =>
    obtain ⟨hc, ha⟩ := List.ne_and_not_mem_of_not_mem_cons h
    rw [List.cons_append, writeAll_cons (read?_eq_none_of_ne hc.symm _), ih ha, Option.map_map]
    rfl

theorem writeAll_of_notMem (h : '\x7b' ∉ cs) : writeAll style vars cs = some cs := by
  have happend : writeAll style vars (cs ++ []) = (writeAll style vars []).map (cs ++ ·) :=
    writeAll_append h []
  rw [List.append_nil] at happend
  rw [happend]
  exact congrArg some (List.append_nil cs)

theorem mapM_writePiece_of_chars {ps : List (Text.Piece NumberToken)}
    (h : ∀ p ∈ ps, ∃ c, p = .char c) :
    ps.mapM (writePiece style vars) = some (ps.map Text.Piece.source) := by
  induction ps with
  | nil => rfl
  | cons p ps ih =>
    obtain ⟨c, rfl⟩ := h p List.mem_cons_self
    rw [List.mapM_cons, ih fun q hq => h q (List.mem_cons_of_mem _ hq)]
    rfl

theorem writeAll_of_not_occursIn (h : occursIn cs = false) : writeAll style vars cs = some cs := by
  have hchars : ∀ p ∈ Text.tokens read? cs, ∃ c, p = .char c := by
    intro p hp
    have hno := List.any_eq_false.1 h p hp
    cases p with
    | char c => exact ⟨c, rfl⟩
    | token t source => exact absurd rfl hno
  have hsources := Text.sources_tokens read? cs
  rw [List.flatMap_def] at hsources
  rw [writeAll, mapM_writePiece_of_chars hchars, Option.map_some, hsources]

theorem writeAll_capitalizeChars (h : read? cs = none) :
    writeAll style vars (Text.Transform.capitalizeChars cs) =
      (writeAll style vars cs).map Text.Transform.capitalizeChars := by
  cases cs with
  | nil => rfl
  | cons c cs =>
    rw [writeAll_cons h, Option.map_map]
    by_cases hc : c = '\x7b'
    · -- a brace has no other case, so that the text is the same one
      have hbrace : Text.upperChar c = [c] := by
        rw [hc]
        decide
      have hsame : ∀ ds, Text.Transform.capitalizeChars (c :: ds) = c :: ds := by
        intro ds
        rw [Text.Transform.capitalizeChars, hbrace, List.singleton_append]
      rw [hsame, writeAll_cons h]
      exact congrArg (Option.map · _) (funext fun ds => (hsame ds).symm)
    · exact writeAll_append (Text.brace_notMem_upperChar hc) cs

end NumberToken

namespace NumberFormat

/-- A rendered result with its number tokens written. It stays as it is without values to write, and
also if one of them cannot be written. -/
def written (own locale : String) (vars : Option Vars) (text : String) : String :=
  (vars.bind fun vars => NumberToken.formatTokens (localeFor own locale) vars text).getD text

theorem absorb_writeNumbers (own : String) (c : Context) :
    Hook.after.absorb c (writeNumbers own c) =
      { c with result := c.result.map (written own c.locale c.vars) } := by
  obtain ⟨locale, space, name, vars, result, data⟩ := c
  cases result with
  | none => rfl
  | some text =>
    cases vars with
    | none => rfl
    | some vars =>
      unfold writeNumbers written
      dsimp only [Option.bind_some, Option.map_some]
      split
      · cases NumberToken.formatTokens (localeFor own locale) vars text <;> rfl
      · rename_i hoccurs
        rw [NumberToken.formatTokens_eq_writeAll,
          NumberToken.writeAll_of_not_occursIn (Bool.not_eq_true _ ▸ hoccurs), Option.map_some,
          String.ofList_toList]
        rfl

variable {own locale : String} {vars : Option Vars} {text : String}

theorem written_of_notMem (h : '\x7b' ∉ text.toList) : written own locale vars text = text := by
  cases vars with
  | none => rfl
  | some vars =>
    unfold written
    rw [Option.bind_some, NumberToken.formatTokens_eq_writeAll, NumberToken.writeAll_of_notMem h,
      Option.map_some, String.ofList_toList, Option.getD_some]

/-- A capital at the start does not touch numbers further on. -/
theorem written_capitalize (h : NumberToken.read? text.toList = none) :
    written own locale vars (Text.Transform.capitalize.apply text) =
      Text.Transform.capitalize.apply (written own locale vars text) := by
  cases vars with
  | none => rfl
  | some vars =>
    unfold written
    rw [Option.bind_some, Option.bind_some, NumberToken.formatTokens_eq_writeAll,
      NumberToken.formatTokens_eq_writeAll]
    unfold Text.Transform.apply
    rw [String.toList_ofList]
    show (Option.map _ (NumberToken.writeAll _ _ (Text.Transform.capitalizeChars _))).getD _ = _
    rw [NumberToken.writeAll_capitalizeChars h]
    cases NumberToken.writeAll (.of (localeFor own locale)) vars text.toList with
    | none => rfl
    | some cs =>
      rw [Option.map_some, Option.map_some, Option.map_some, Option.getD_some, Option.getD_some,
        String.toList_ofList]
      rfl

end NumberFormat

end Phrasebook
