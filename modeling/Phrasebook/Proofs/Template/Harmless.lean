import Phrasebook.Proofs.Icu.Composition
import Phrasebook.Proofs.Text.Escaped
import Phrasebook.Service

/-!
# Values bring no markup into a message

Where values are escaped, they enter a message as escaped text, and no later step takes an entity
apart: patterns are replaced before any value is written, and a slot holds no ampersand.
`Work.Drawn` says what the text in work consists of, `escaped_restore` that parked texts return in
one piece.
-/

namespace Phrasebook

theorem Text.escaped_replaceTokens {τ : Type} {token? : List Char → Option (τ × Nat)}
    {f : τ → Option (List Char)} {cs : List Char} (hcs : ∀ c ∈ cs, c ∉ markup)
    (hf : ∀ t text, f t = some text → Escaped text) : Escaped (replaceTokens token? f cs) := by
  refine Escaped.flatMap fun piece hpiece => ?_
  have hsource : ∀ c ∈ piece.source, c ∉ markup := fun c hc => hcs c (mem_of_mem_source hpiece hc)
  cases piece with
  | char c => exact .of_notMem hsource
  | token t source =>
    cases htext : f t with
    | none =>
      dsimp only
      rw [htext]
      exact .of_notMem hsource
    | some text =>
      dsimp only
      rw [htext]
      exact hf t text htext

theorem escaped_showText (text : String) : Text.Escaped (showText true text) :=
  .escape _

theorem notMem_markup_of_isPlainNumberChar {c : Char} (h : isPlainNumberChar c = true) :
    c ∉ Text.markup := by
  have hnone : (Text.markup.all fun d => !isPlainNumberChar d) = true := by decide
  intro hm
  have hc := List.all_eq_true.1 hnone c hm
  rw [h] at hc
  exact Bool.noConfusion hc

namespace Icu

variable {env : Env} {kind : Kind} {P : Char → Prop} {parked : List (List Char)}

/-! ### The text in work -/

theorem mem_of_choose_body {v : Option Value} {options body : List Char}
    (h : choose env kind v options = some (.body body)) {c : Char} (hc : c ∈ body) :
    c ∈ options ∨ isPlainNumberChar c = true := by
  rcases body_of_choose h with ⟨x, rfl⟩ | ⟨clause, hmem, hash, hhash, rfl⟩
  · exact .inr (isPlainNumberChar_of_mem_plainChars hc)
  · have hsub := (body_sublist_of_mem_clauses hmem).subset
    rcases mem_fillHash hc with ⟨hc, -⟩ | ⟨hc, hbody⟩
    · exact .inl (hsub hc)
    · rcases hhash with rfl | ⟨x, rfl⟩
      · exact .inl (hsub (List.mem_singleton.1 hc ▸ hbody))
      · exact .inr (isPlainNumberChar_of_mem_plainChars hc)

/-- All characters of the text pass, and the parked texts are what values are shown as. -/
structure Work.Drawn (env : Env) (P : Char → Prop) (w : Work) : Prop where
  text : ∀ c ∈ w.text, P c
  parked : ∀ p ∈ w.parked, ∃ name, env.shown? name = some p

theorem Work.Drawn.behind {w : Work} (h : w.Drawn env P) {cs : List Char} (hcs : ∀ c ∈ cs, P c) :
    (w.behind cs).Drawn env P :=
  ⟨fun c hc => (List.mem_append.1 hc).elim (hcs c) (h.text c), h.parked⟩

theorem mem_slot {index : Nat} {c : Char} (h : c ∈ slot index) :
    c = slotOpen ∨ c = slotClose ∨ isPlainNumberChar c = true := by
  rcases List.mem_cons.1 h with rfl | h
  · exact .inl rfl
  rcases List.mem_append.1 h with h | h
  · exact .inr (.inr (by simp [isPlainNumberChar, Decimal.isDigit_of_mem_natDigits h]))
  · exact .inr (.inl (List.mem_singleton.1 h))

/-- Sweeps write nothing but characters of the text, numbers and slots. -/
theorem Work.Drawn.resolveWithin (hnumber : ∀ c, isPlainNumberChar c = true → P c)
    (hslot : P slotOpen ∧ P slotClose) (kind : Kind) (fuel : Nat) {w : Work} (h : w.Drawn env P) :
    (resolveWithin env kind fuel w).Drawn env P := by
  induction fuel generalizing w with
  | zero => exact h
  | succ fuel ih =>
    rw [Icu.resolveWithin]
    cases hm : findMarker kind w.text with
    | none => exact h
    | some found =>
      obtain ⟨before, name, head, after⟩ := found
      obtain ⟨htext, -⟩ := eq_append_of_findMarker hm
      have hpieces := h.text
      rw [htext] at hpieces
      obtain ⟨hfront, hafter⟩ := List.forall_mem_append.1 hpieces
      have hbefore := (List.forall_mem_append.1 hfront).1
      dsimp only
      cases hr : replacement? env kind name after with
      | none =>
        have hrest : Work.Drawn env P { w with text := after } := ⟨hafter, h.parked⟩
        exact (ih hrest).behind hfront
      | some found =>
        obtain ⟨r, tail⟩ := found
        obtain ⟨options, hclose, hr'⟩ := choose_of_replacement? hr
        rw [closing_eq hclose] at hafter
        obtain ⟨hoptions, hclosed⟩ := List.forall_mem_append.1 hafter
        have htail := (List.forall_mem_cons.1 hclosed).2
        cases r with
        | body body =>
          have hbody : ∀ c ∈ body, P c := fun c hc =>
            (mem_of_choose_body hr' hc).elim (hoptions c) (hnumber c)
          have hrest : Work.Drawn env P { w with text := body ++ tail } :=
            ⟨List.forall_mem_append.2 ⟨hbody, htail⟩, h.parked⟩
          exact (ih hrest).behind hbefore
        | text text =>
          have hrest : Work.Drawn env P ⟨tail, w.parked ++ [text]⟩ := by
            refine ⟨htail, List.forall_mem_append.2 ⟨h.parked, ?_⟩⟩
            obtain ⟨s, hs, rfl⟩ := text_of_choose hr'
            exact List.forall_mem_singleton.2 ⟨name, congrArg (Option.map _) hs⟩
          have hmark : ∀ c ∈ slot w.parked.length, P c := by
            intro c hc
            rcases mem_slot hc with rfl | rfl | hc
            · exact hslot.1
            · exact hslot.2
            · exact hnumber c hc
          exact (ih hrest).behind (List.forall_mem_append.2 ⟨hbefore, hmark⟩)

theorem Work.Drawn.settle (hnumber : ∀ c, isPlainNumberChar c = true → P c)
    (hslot : P slotOpen ∧ P slotClose) (n : Nat) {w : Work} (h : w.Drawn env P) :
    (settle env n w).Drawn env P := by
  have hpass : ∀ {w : Work}, w.Drawn env P → (pass env w).Drawn env P := fun h =>
    .resolveWithin hnumber hslot .ordinal _
      (.resolveWithin hnumber hslot .select _ (.resolveWithin hnumber hslot .plural _ h))
  induction n generalizing w with
  | zero => exact h
  | succ n ih =>
    rw [Icu.settle]
    split
    · exact hpass h
    · exact ih (hpass h)

/-! ### Parked texts -/

theorem slotOpen_notMem_of_mem_entities : ∀ e ∈ Text.entities, slotOpen ∉ e := by
  decide

theorem amp_notMem_slot {ds : List Char} {n : Nat} (h : readDigits? ds = some n) :
    '&' ∉ slotOpen :: (ds ++ [slotClose]) := by
  simp only [List.mem_cons, List.mem_append, List.not_mem_nil, or_false, not_or]
  refine ⟨by decide, fun hmem => ?_, by decide⟩
  exact absurd (List.all_eq_true.1 (digits_of_readDigits? h).2 _ hmem) (by decide)

/-- Parked texts return in one piece, and no entity around them is taken apart. -/
theorem escaped_restore (hp : ∀ p ∈ parked, Text.Escaped p) {cs : List Char}
    (h : Text.Escaped cs) : Text.Escaped (restore parked cs) := by
  -- on the length, since a slot is passed in one step
  induction hn : cs.length using Nat.strongRecOn generalizing cs with
  | ind n ih =>
    subst hn
    cases h with
    | nil => exact .nil
    | @entity e cs he h =>
      have hopen : slotOpen ∉ e := slotOpen_notMem_of_mem_entities e he
      obtain ⟨tail, rfl, -⟩ := Text.exists_of_mem_entities he
      rw [restore_append hopen]
      exact .entity he (ih _ (by simp only [List.length_append, List.length_cons]; omega) h rfl)
    | @char c cs hc h =>
      rcases restore_cases parked c cs with ⟨ds, rest, p, htext, hreturn, hstep⟩ | ⟨-, hstep⟩
      · obtain ⟨index, hread, hget⟩ := Option.bind_eq_some_iff.1 hreturn
        have hall : Text.Escaped (slotOpen :: (ds ++ [slotClose]) ++ rest) := by
          rw [List.cons_append, List.append_assoc, List.singleton_append, ← htext]
          exact .char hc h
        have hrest : Text.Escaped rest := hall.of_append (amp_notMem_slot hread)
        have hshort : rest.length < (c :: cs).length := by
          rw [htext, List.length_cons, List.length_append, List.length_cons]
          omega
        rw [hstep]
        exact (hp p (List.mem_of_getElem? hget)).append (ih _ hshort hrest rfl)
      · rw [hstep]
        exact .char hc (ih _ (by simp) h rfl)

/-! ### Messages -/

theorem harmless_renderChars {env : Env} (he : env.escape = true) {template : List Char}
    (ht : ∀ c ∈ template, c ∉ Text.markup) : Text.Harmless (renderChars env template) := by
  have hdrawn : (settle env passLimit { text := template }).Drawn env (· ∉ Text.markup) := by
    refine Work.Drawn.settle (fun c hc => ?_) (by decide) passLimit ⟨ht, by simp⟩
    exact notMem_markup_of_isPlainNumberChar hc
  have hfilled : Text.Escaped (fillVariables env (settle env passLimit { text := template }).text) := by
    refine Text.escaped_replaceTokens hdrawn.text fun name text htext => ?_
    obtain ⟨s, -, rfl⟩ := Option.map_eq_some_iff.1 htext
    rw [he]
    exact escaped_showText s
  refine (escaped_restore (fun p hp => ?_) hfilled).harmless
  obtain ⟨name, hname⟩ := hdrawn.parked p hp
  obtain ⟨s, -, rfl⟩ := Option.map_eq_some_iff.1 hname
  rw [he]
  exact escaped_showText s

end Icu

theorem Mustache.harmless_renderChars (vars : Vars) {template : List Char}
    (ht : ∀ c ∈ template, c ∉ Text.markup) :
    Text.Harmless (renderChars true vars template) := by
  refine (Text.escaped_replaceTokens ht fun path text htext => ?_).harmless
  obtain ⟨s, -, rfl⟩ := Option.map_eq_some_iff.1 htext
  exact escaped_showText s

/-- Where values are escaped, a message whose template has no markup has none, whatever the values
are: in both syntaxes and every locale, and as a phrase book renders it. -/
theorem rendered_harmless {template : String} (ht : ∀ c ∈ template.toList, c ∉ Text.markup) :
    (∀ vars, Text.Harmless (Mustache.render true vars template).toList) ∧
    (∀ locale vars, Text.Harmless (Icu.render ⟨locale, true, vars⟩ template).toList) ∧
    ∀ (e : Engine) (vars : Option Vars), e.settings.escapeHtml = true →
      Text.Harmless (e.render template vars).toList := by
  have hmustache : ∀ vars, Text.Harmless (Mustache.render true vars template).toList := by
    intro vars
    rw [Mustache.render, String.toList_ofList]
    exact Mustache.harmless_renderChars vars ht
  have hicu : ∀ locale vars, Text.Harmless (Icu.render ⟨locale, true, vars⟩ template).toList := by
    intro locale vars
    rw [Icu.render, String.toList_ofList]
    exact Icu.harmless_renderChars rfl ht
  refine ⟨hmustache, hicu, fun e vars he => ?_⟩
  unfold Engine.render
  cases vars with
  | none => exact (Text.Escaped.of_notMem ht).harmless
  | some vars =>
    rw [he]
    cases e.settings.messageSyntax with
    | mustache => exact hmustache vars
    | icu => exact hicu e.formatLocale vars

/-- Values full of markup, one of which spells a slot. -/
def hostileVars : Vars :=
  [("kind", .str "<script>"), ("name", .str "0"), ("note", .list [.str "'&/"])]

/-- The parked text returns into the slot that a value spells, too. -/
theorem rendered_harmless_hostile :
    (∀ c ∈ "{kind, select, a {Alpha}}; {name}; {note}".toList, c ∉ Text.markup) ∧
      Icu.render ⟨"en", true, hostileVars⟩ "{kind, select, a {Alpha}}; {name}; {note}" =
        "&lt;script&gt;; &lt;script&gt;; [&quot;&#x27;&amp;&#x2f;&quot;]" ∧
      Text.Harmless
        (Icu.render ⟨"en", true, hostileVars⟩ "{kind, select, a {Alpha}}; {name}; {note}").toList := by
  have hall : ("{kind, select, a {Alpha}}; {name}; {note}".toList.all
      fun c => decide (c ∉ Text.markup)) = true := by
    decide +kernel
  have ht : ∀ c ∈ "{kind, select, a {Alpha}}; {name}; {note}".toList, c ∉ Text.markup :=
    fun c hc => of_decide_eq_true (List.all_eq_true.1 hall c hc)
  exact ⟨ht, by decide +kernel, (rendered_harmless ht).2.1 "en" hostileVars⟩

end Phrasebook
