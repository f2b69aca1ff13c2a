import Phrasebook.Proofs.Template.Harmless
import Phrasebook.Proofs.Template.Untouched

/-!
# Messages that stay as they are

A sweep either changes nothing or leaves fewer opening braces in the text, `resolve_cases`, and the
steps after the sweeps bring none unless values do. So where no value has one, a message stays as it
is exactly if none of its patterns and placeholders has a replacement: `renderChars_eq_self_iff`.
-/

namespace Phrasebook.Icu

variable {env : Env} {kind : Kind} {cs before name head after front name' head' after' : List Char}

/-! ### The first head in a text -/

/-- If there is no first head, there is none. -/
theorem marker?_of_findMarker_none (h : findMarker kind (front ++ cs) = none) :
    marker? kind cs = none := by
  induction front with
  | nil =>
    cases hm : marker? kind cs with
    | none => rfl
    | some found => simp [findMarker_of_some hm] at h
  | cons c front ih =>
    rw [List.cons_append] at h
    cases hm : marker? kind (c :: (front ++ cs)) with
    | none =>
      rw [findMarker_cons_of_none hm, Option.map_eq_none_iff] at h
      exact ih h
    | some found => simp [findMarker_of_some hm] at h

/-- A head in a text is the first one or stands behind it. -/
theorem first_or_behind
    (h : findMarker kind (front ++ (head' ++ after')) = some (before, name, head, after))
    (hm : marker? kind (head' ++ after') = some (name', head')) :
    name' = name ∧ after' = after ∨ ∃ more, after = more ++ (head' ++ after') := by
  induction front generalizing before with
  | nil =>
    rw [List.nil_append, findMarker_of_some hm, List.drop_left] at h
    simp only [Option.some.injEq, Prod.mk.injEq] at h
    exact .inl ⟨h.2.1, h.2.2.2⟩
  | cons c front ih =>
    rw [List.cons_append] at h
    cases hfirst : marker? kind (c :: (front ++ (head' ++ after'))) with
    | none =>
      rw [findMarker_cons_of_none hfirst] at h
      obtain ⟨⟨before', rest⟩, hf, he⟩ := Option.map_eq_some_iff.1 h
      simp only [Prod.mk.injEq] at he
      obtain ⟨-, rfl, rfl, rfl⟩ := he
      exact ih hf
    | some found =>
      obtain ⟨n, first⟩ := found
      rw [findMarker_of_some hfirst] at h
      simp only [Option.some.injEq, Prod.mk.injEq] at h
      obtain ⟨-, -, -, rfl⟩ := h
      obtain ⟨blanks, more, rest, -, hn, hb, hmore, rfl, htext⟩ := eq_append_of_marker? hfirst
      obtain ⟨_, _, _, -, -, -, -, hopen, -⟩ := eq_append_of_marker? hm
      have hword := noBrace_head kind hn hb hmore
      rw [htext, List.drop_left]
      -- behind its brace, the first head has no brace for another one
      rcases List.append_eq_append_iff.1 (List.cons.inj htext).2 with
        ⟨inner, hinner, hrest⟩ | ⟨more, rfl, hrest⟩
      · cases inner with
        | nil => exact .inr ⟨[], hrest.symm⟩
        | cons d inner =>
          rw [hopen] at hrest
          obtain ⟨rfl, -⟩ := List.cons.inj hrest
          exact absurd (by rw [hinner]; simp) hword.notMem
      · exact .inr ⟨more, hrest⟩

/-! ### Sweeps that change nothing -/

/-- No pattern of this kind has a replacement, wherever it stands in the text. -/
def Env.Skips (env : Env) (kind : Kind) (cs : List Char) : Prop :=
  ∀ front name head after, cs = front ++ (head ++ after) →
    marker? kind (head ++ after) = some (name, head) → replacement? env kind name after = none

theorem Env.Skips.of_append {a b : List Char} (h : env.Skips kind (a ++ b)) :
    env.Skips kind b := by
  rintro front name head after rfl hm
  exact h (a ++ front) name head after (List.append_assoc _ _ _).symm hm

theorem Env.Skips.of_findMarker (hf : findMarker kind cs = some (before, name, head, after))
    (hr : replacement? env kind name after = none) (h : env.Skips kind after) :
    env.Skips kind cs := by
  rintro front name' head' after' rfl hm
  rcases first_or_behind hf hm with ⟨rfl, rfl⟩ | ⟨more, rfl⟩
  · exact hr
  · exact h more name' head' after' rfl hm

/-- A sweep changes nothing, or leaves fewer opening braces. -/
theorem resolve_cases (env : Env) (kind : Kind) (cs : List Char) (ps : List (List Char)) :
    env.Skips kind cs ∧ resolve env kind ⟨cs, ps⟩ = ⟨cs, ps⟩ ∨
      ¬ env.Skips kind cs ∧
        (resolve env kind ⟨cs, ps⟩).text.count '\x7b' < cs.count '\x7b' := by
  -- on the number of braces, since a body may be longer than its pattern
  induction hn : cs.count '\x7b' using Nat.strongRecOn generalizing cs ps with
  | ind n ih =>
    subst hn
    cases hm : findMarker kind cs with
    | none =>
      refine .inl ⟨?_, resolveWithin_of_none hm _⟩
      rintro front name head after rfl hhead
      rw [marker?_of_findMarker_none hm] at hhead
      simp at hhead
    | some found =>
      obtain ⟨before, name, head, after⟩ := found
      obtain ⟨htext, hmarker⟩ := eq_append_of_findMarker hm
      have hless := count_around hm
      cases hr : replacement? env kind name after with
      | none =>
        have hstep : resolve env kind ⟨cs, ps⟩ =
            (resolve env kind ⟨after, ps⟩).behind (before ++ head) := by
          rw [resolve_eq]
          simp only [hm, hr]
        rw [hstep]
        rcases ih _ (by omega) after ps rfl with ⟨hskip, hsame⟩ | ⟨hnot, hfewer⟩
        · refine .inl ⟨hskip.of_findMarker hm hr, ?_⟩
          rw [hsame, Work.behind, htext]
        · refine .inr ⟨fun h => hnot (htext ▸ h).of_append, ?_⟩
          rw [htext]
          simp only [Work.behind, List.count_append]
          omega
      | some found =>
        have hnot : ¬ env.Skips kind cs := by
          intro h
          rw [h before name head after (by rw [htext, List.append_assoc]) hmarker] at hr
          simp at hr
        have later : ∀ text qs, text.count '\x7b' ≤ after.count '\x7b' →
            (resolve env kind ⟨text, qs⟩).text.count '\x7b' ≤ after.count '\x7b' := by
          intro text qs hle
          rcases ih _ (by omega) text qs rfl with ⟨-, hsame⟩ | ⟨-, hfewer⟩
          · rw [hsame]
            exact hle
          · omega
        refine .inr ⟨hnot, ?_⟩
        rw [resolve_eq]
        obtain ⟨body | text, tail⟩ := found
        · have hle := later _ ps (count_replacement? hr)
          simp only [hm, hr, Work.behind, List.count_append]
          omega
        · have hle := later _ (ps ++ [text]) (count_replacement?_text hr)
          have hslot := List.count_eq_zero.2 (noBrace_slot ps.length).notMem
          simp only [hm, hr, Work.behind, List.count_append]
          omega

theorem resolve_of_skips (h : env.Skips kind cs) (ps : List (List Char)) :
    resolve env kind ⟨cs, ps⟩ = ⟨cs, ps⟩ := by
  rcases resolve_cases env kind cs ps with ⟨-, hsame⟩ | ⟨hnot, -⟩
  · exact hsame
  · exact absurd h hnot

/-- The same holds of several sweeps, one after the other. -/
theorem resolveAll_cases (env : Env) (kinds : List Kind) (w : Work) :
    (∀ kind ∈ kinds, env.Skips kind w.text) ∧
        kinds.foldl (fun w kind => resolve env kind w) w = w ∨
      (¬ ∀ kind ∈ kinds, env.Skips kind w.text) ∧
        (kinds.foldl (fun w kind => resolve env kind w) w).text.count '\x7b' <
          w.text.count '\x7b' := by
  induction kinds generalizing w with
  | nil => exact .inl ⟨by simp, rfl⟩
  | cons kind kinds ih =>
    rw [List.foldl_cons, List.forall_mem_cons]
    rcases resolve_cases env kind w.text w.parked with ⟨hskip, hsame⟩ | ⟨hnot, hfewer⟩
    · rw [show resolve env kind w = w from hsame]
      rcases ih w with ⟨hall, hsame⟩ | ⟨hnot, hfewer⟩
      · exact .inl ⟨⟨hskip, hall⟩, hsame⟩
      · exact .inr ⟨fun h => hnot h.2, hfewer⟩
    · refine .inr ⟨fun h => hnot h.1, ?_⟩
      rcases ih (resolve env kind w) with ⟨-, hsame⟩ | ⟨-, hless⟩
      · rw [hsame]
        exact hfewer
      · exact hless.trans hfewer

theorem pass_cases (env : Env) (w : Work) :
    (∀ kind, env.Skips kind w.text) ∧ pass env w = w ∨
      (¬ ∀ kind, env.Skips kind w.text) ∧
        (pass env w).text.count '\x7b' < w.text.count '\x7b' := by
  have hkinds : (∀ kind ∈ passOrder, env.Skips kind w.text) ↔ ∀ kind, env.Skips kind w.text :=
    ⟨fun h kind => h kind (by cases kind <;> decide), fun h kind _ => h kind⟩
  rw [← hkinds]
  exact resolveAll_cases env passOrder w

theorem count_settle_le (env : Env) (n : Nat) (w : Work) :
    (settle env n w).text.count '\x7b' ≤ w.text.count '\x7b' := by
  induction n generalizing w with
  | zero => exact Nat.le_refl _
  | succ n ih =>
    have hpass : (pass env w).text.count '\x7b' ≤ w.text.count '\x7b' := by
      rcases pass_cases env w with ⟨-, hsame⟩ | ⟨-, hfewer⟩
      · rw [hsame]
      · exact Nat.le_of_lt hfewer
    rw [settle]
    split
    · exact hpass
    · exact (ih _).trans hpass

theorem settle_cases (env : Env) (n : Nat) (w : Work) :
    (∀ kind, env.Skips kind w.text) ∧ settle env (n + 1) w = w ∨
      (settle env (n + 1) w).text.count '\x7b' < w.text.count '\x7b' := by
  rcases pass_cases env w with ⟨hskip, hsame⟩ | ⟨-, hfewer⟩
  · exact .inl ⟨hskip, settle_of_pass_eq hsame _⟩
  · have hne : (pass env w).text ≠ w.text := fun he => Nat.ne_of_lt hfewer (congrArg _ he)
    rw [settle, if_neg hne]
    exact .inr (Nat.lt_of_le_of_lt (count_settle_le env n _) hfewer)

/-! ### Renderings that change nothing -/

/-- No pattern and no placeholder of the message has a replacement. -/
structure Env.Inert (env : Env) (cs : List Char) : Prop where
  patterns : ∀ kind, env.Skips kind cs
  placeholders : ∀ name source, Text.Piece.token name source ∈ Text.tokens simple? cs →
    env.shown? name = none

/-- No value has an opening brace in its text. -/
def Env.Braceless (env : Env) : Prop :=
  ∀ name text, env.shown? name = some text → '\x7b' ∉ text

theorem renderChars_of_inert (h : env.Inert cs) : renderChars env cs = cs := by
  have hpass : pass env ⟨cs, []⟩ = ⟨cs, []⟩ :=
    pass_eq_self fun kind => resolve_of_skips (h.patterns kind) []
  have hfill : fillVariables env cs = cs := Text.replaceTokens_eq_self h.placeholders
  unfold renderChars
  rw [settle_of_pass_eq hpass]
  dsimp only
  rw [hfill, restore_nil]

/-- A placeholder is written with an opening brace. -/
theorem brace_mem_of_mem_tokens {source : List Char}
    (h : Text.Piece.token name source ∈ Text.tokens simple? cs) : '\x7b' ∈ source := by
  obtain ⟨front, rest, n, -, hread, rfl⟩ := Text.read_of_mem_tokens h
  obtain ⟨after, rfl, rfl, -⟩ := simple?_eq_some hread
  exact List.mem_cons_self

/-- Texts without opening braces bring none into a message. -/
theorem count_shown_lt (hv : env.Braceless) {source text : List Char}
    (h : Text.Piece.token name source ∈ Text.tokens simple? cs)
    (ht : env.shown? name = some text) : text.count '\x7b' < source.count '\x7b' := by
  rw [List.count_eq_zero.2 (hv name text ht)]
  exact List.count_pos_iff.2 (brace_mem_of_mem_tokens h)

theorem fillVariables_eq_self_iff (hv : env.Braceless) (cs : List Char) :
    fillVariables env cs = cs ↔
      ∀ name source, Text.Piece.token name source ∈ Text.tokens simple? cs →
        env.shown? name = none :=
  Text.replaceTokens_eq_self_iff fun _ _ hmem _ htext => count_shown_lt hv hmem htext

theorem count_fillVariables_le (hv : env.Braceless) (cs : List Char) :
    (fillVariables env cs).count '\x7b' ≤ cs.count '\x7b' :=
  (Text.count_replaceTokens fun _ _ hmem _ htext => Nat.le_of_lt (count_shown_lt hv hmem htext)).1

theorem count_restore_le {parked : List (List Char)} (hp : ∀ p ∈ parked, '\x7b' ∉ p)
    (cs : List Char) : (restore parked cs).count '\x7b' ≤ cs.count '\x7b' := by
  refine (Text.count_replaceTokens fun ds source _ text htext => ?_).1
  obtain ⟨index, -, hget⟩ := Option.bind_eq_some_iff.1 htext
  rw [List.count_eq_zero.2 (hp text (List.mem_of_getElem? hget))]
  exact Nat.zero_le _

theorem renderChars_eq_self_iff (hv : env.Braceless) (cs : List Char) :
    renderChars env cs = cs ↔ env.Inert cs := by
  refine ⟨fun hsame => ?_, renderChars_of_inert⟩
  unfold renderChars at hsame
  dsimp only at hsame
  rcases settle_cases env 31 ⟨cs, []⟩ with ⟨hskip, hsettle⟩ | hfewer
  · rw [show passLimit = 31 + 1 from rfl, hsettle] at hsame
    rw [restore_nil] at hsame
    exact ⟨hskip, (fillVariables_eq_self_iff hv cs).1 hsame⟩
  · let w := settle env passLimit { text := cs }
    have hdrawn : w.Drawn env fun _ => True :=
      .settle (by simp) ⟨trivial, trivial⟩ passLimit ⟨by simp, by simp⟩
    have hparked : ∀ p ∈ w.parked, '\x7b' ∉ p := by
      intro p hp
      obtain ⟨name, hname⟩ := hdrawn.parked p hp
      exact hv name p hname
    have hcount : cs.count '\x7b' ≤ w.text.count '\x7b' := by
      calc cs.count '\x7b' = (restore w.parked (fillVariables env w.text)).count '\x7b' := by
            rw [hsame]
        _ ≤ (fillVariables env w.text).count '\x7b' := count_restore_le hparked _
        _ ≤ w.text.count '\x7b' := count_fillVariables_le hv _
    exact absurd hfewer (Nat.not_lt.2 hcount)

end Phrasebook.Icu
