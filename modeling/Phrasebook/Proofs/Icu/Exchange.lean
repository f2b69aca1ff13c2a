import Phrasebook.Proofs.Icu.Slots
import Phrasebook.Proofs.Icu.Verbatim

/-!
# Texts of values in a rendering

A text that is only asked for by placeholders takes no part in the choice of clauses, so two
renderings that differ in it come to the same text before the placeholders are filled. What differs
after that is exchanged, `exchange_rendered`, but the parked texts return later: a text may be read
as a slot, or as part of one.
-/

namespace Phrasebook.Icu

variable {env : Env} {kind : Kind} {a name cs : List Char} {s : String} {x : Char}
  {parked : List (List Char)} {text : List Char}

/-- The environment with this text under the name. -/
def Env.bind (env : Env) (name : List Char) (text : String) : Env :=
  { env with vars := Dictionary.insert (String.ofList name) (.str text) env.vars }

theorem value?_bind_self : (env.bind a s).value? a = some (.str s) :=
  Dictionary.find?_insert_self _ _ _

theorem value?_bind_of_ne (h : name ≠ a) : (env.bind a s).value? name = env.value? name :=
  Dictionary.find?_insert_of_ne (fun he => h (String.ofList_injective he)) _ _

/-! ### Patterns over other names -/

theorem replacement?_bind (h : name ≠ a) (cs : List Char) :
    replacement? (env.bind a s) kind name cs = replacement? env kind name cs := by
  have hvalue : (env.bind a s).value? name = env.value? name := value?_bind_of_ne h
  unfold Env.value? at hvalue
  unfold replacement?
  rw [hvalue]
  cases kind <;> rfl

theorem resolveWithin_bind {fuel : Nat} {w : Work} (h : a ∉ namesWithin env kind fuel w) :
    resolveWithin (env.bind a s) kind fuel w = resolveWithin env kind fuel w := by
  induction fuel generalizing w with
  | zero => rfl
  | succ fuel ih =>
    rw [namesWithin] at h
    rw [resolveWithin, resolveWithin]
    cases hm : findMarker kind w.text with
    | none => rfl
    | some found =>
      obtain ⟨before, name, head, after⟩ := found
      simp only [hm, List.mem_cons, not_or] at h
      obtain ⟨hname, hlater⟩ := h
      dsimp only
      rw [replacement?_bind (Ne.symm hname)]
      cases hr : replacement? env kind name after with
      | none =>
        rw [hr] at hlater
        dsimp only
        rw [ih hlater]
      | some found =>
        obtain ⟨body | text, tail⟩ := found
        · rw [hr] at hlater
          dsimp only
          rw [ih hlater]
        · rw [hr] at hlater
          dsimp only
          rw [ih hlater]

theorem resolveAll_bind {kinds : List Kind} {w : Work} (h : a ∉ namesOver env kinds w) :
    kinds.foldl (fun w kind => resolve (env.bind a s) kind w) w =
      kinds.foldl (fun w kind => resolve env kind w) w := by
  induction kinds generalizing w with
  | nil => rfl
  | cons kind kinds ih =>
    simp only [namesOver, List.mem_append, not_or] at h
    have hfirst : resolve (env.bind a s) kind w = resolve env kind w := resolveWithin_bind h.1
    rw [List.foldl_cons, List.foldl_cons, hfirst, ih h.2]

/-- Until the placeholders are filled, the text under a name that no pattern has does not matter. -/
theorem settle_bind {n : Nat} {w : Work} (h : a ∉ settleNames env n w) :
    settle (env.bind a s) n w = settle env n w := by
  induction n generalizing w with
  | zero => rfl
  | succ n ih =>
    simp only [settleNames, List.mem_append, not_or] at h
    have hpass : pass (env.bind a s) w = pass env w := resolveAll_bind h.1
    rw [settle, settle, hpass]
    split
    · rfl
    · rename_i hne
      rw [if_neg hne] at h
      exact ih h.2

/-! ### Exchanging a character -/

/-- The text in the place of each `x`. -/
def exchange (x : Char) (text cs : List Char) : List Char :=
  cs.flatMap fun c => if c = x then text else [c]

theorem exchange_append (a b : List Char) :
    exchange x text (a ++ b) = exchange x text a ++ exchange x text b := by
  simp [exchange]

theorem exchange_self : exchange x text (x :: cs) = text ++ exchange x text cs := by
  simp [exchange]

theorem exchange_cons {c : Char} (h : c ≠ x) :
    exchange x text (c :: cs) = c :: exchange x text cs := by
  simp [exchange, h]

theorem exchange_of_notMem (h : x ∉ cs) : exchange x text cs = cs := by
  induction cs with
  | nil => rfl
  | cons c cs ih =>
    simp only [List.mem_cons, not_or] at h
    rw [exchange_cons (Ne.symm h.1), ih h.2]

/-- A character that a rendering of the template has only where it has the value under `a`. -/
structure Fresh (env : Env) (a template : List Char) (x : Char) : Prop where
  template : x ∉ template
  marks : slotOpen ≠ x ∧ slotClose ≠ x
  number : isPlainNumberChar x = false
  markup : x ∉ Text.markup
  values : ∀ name, name ≠ a → ∀ text, (env.value? name).bind Value.display = some text →
    x ∉ showText env.escape text

theorem shown?_bind_self : (env.bind a s).shown? a = some (showText env.escape s) := by
  rw [Env.shown?, value?_bind_self]
  rfl

theorem shown?_bind_of_ne (h : name ≠ a) : (env.bind a s).shown? name = env.shown? name := by
  rw [Env.shown?, value?_bind_of_ne h]
  rfl

theorem placeholder_of_mem_tokens {source : List Char}
    (h : Text.Piece.token name source ∈ Text.tokens simple? cs) :
    (Part.placeholder name).print <:+: cs := by
  obtain ⟨front, rest, n, rfl, hread, -⟩ := Text.read_of_mem_tokens h
  obtain ⟨after, rfl, -, -⟩ := simple?_eq_some hread
  exact ⟨front, after, by simp [Part.print]⟩

namespace Fresh

variable {template : List Char}

theorem showText_single (h : Fresh env a template x) :
    showText env.escape (String.ofList [x]) = [x] := by
  unfold showText
  rw [String.toList_ofList]
  split
  · rw [List.flatMap_singleton, Text.escapeChar_of_notMem h.markup]
  · rfl

theorem notMem_shown? (h : Fresh env a template x) (hn : name ≠ a)
    (hs : env.shown? name = some text) : x ∉ text := by
  obtain ⟨t, ht, rfl⟩ := Option.map_eq_some_iff.1 hs
  exact h.values name hn t ht

theorem notMem_slot (h : Fresh env a template x) (index : Nat) : x ∉ slot index := by
  intro hmem
  rcases mem_slot hmem with rfl | rfl | hnumber
  · exact h.marks.1 rfl
  · exact h.marks.2 rfl
  · rw [h.number] at hnumber
    exact Bool.noConfusion hnumber

theorem notMem_settle (h : Fresh env a template x) (n : Nat) :
    x ∉ (settle env n { text := template }).text := by
  have hdrawn : (settle env n { text := template }).Drawn env (· ≠ x) := by
    refine Work.Drawn.settle (fun c hc he => ?_) h.marks n
      ⟨fun c hc he => h.template (he ▸ hc), by simp⟩
    rw [he, h.number] at hc
    exact Bool.noConfusion hc
  exact fun hmem => hdrawn.text x hmem rfl

theorem fillVariables_bind (h : Fresh env a template x) (hx : x ∉ cs) (s : String) :
    fillVariables (env.bind a s) cs = exchange x (showText env.escape s)
      (fillVariables (env.bind a (String.ofList [x])) cs) := by
  have hchar : ∀ c ∈ cs, (if c = x then showText env.escape s else [c]) = [c] := by
    intro c hc
    refine if_neg ?_
    rintro rfl
    exact hx hc
  refine (Text.flatMap_replaceTokens hchar fun name source hmem => ?_).symm
  change exchange x _ (((env.bind a _).shown? name).getD source) =
    ((env.bind a s).shown? name).getD source
  by_cases hn : name = a
  · subst hn
    rw [shown?_bind_self, shown?_bind_self, h.showText_single]
    exact exchange_self.trans (List.append_nil _)
  · rw [shown?_bind_of_ne hn, shown?_bind_of_ne hn]
    refine exchange_of_notMem ?_
    cases hs : env.shown? name with
    | none => exact fun hc => hx (Text.mem_of_mem_source hmem hc)
    | some text => exact h.notMem_shown? hn hs

/-- The fresh character is only filled in by a placeholder of its name. -/
theorem placeholder_of_mem (h : Fresh env a template x) (hx : x ∉ cs)
    (hmem : x ∈ fillVariables (env.bind a (String.ofList [x])) cs) :
    (Part.placeholder a).print <:+: cs := by
  obtain ⟨piece, hpiece, hc⟩ := List.mem_flatMap.1 hmem
  cases piece with
  | char c => exact absurd (Text.mem_of_mem_source hpiece hc) hx
  | token name source =>
    change x ∈ ((env.bind a _).shown? name).getD source at hc
    by_cases hn : name = a
    · exact hn ▸ placeholder_of_mem_tokens hpiece
    · rw [shown?_bind_of_ne hn] at hc
      cases hs : env.shown? name with
      | none =>
        rw [hs] at hc
        exact absurd (Text.mem_of_mem_source hpiece hc) hx
      | some text =>
        rw [hs] at hc
        exact absurd hc (h.notMem_shown? hn hs)

end Fresh

/-! ### Slots after the placeholders are filled -/

theorem slotted_fillVariables {n : Nat} (h : Slotted n cs)
    (ht : ∀ name text, (Part.placeholder name).print <:+: cs → env.shown? name = some text →
      slotOpen ∉ text) : Slotted n (fillVariables env cs) := by
  -- on the length, since a placeholder is filled in one step
  induction hlen : cs.length using Nat.strongRecOn generalizing cs with
  | ind len ih =>
    subst hlen
    have later : ∀ front rest, cs = front ++ rest → front ≠ [] → Slotted n rest →
        Slotted n (fillVariables env rest) := by
      rintro front rest rfl hne hrest
      have hpos := List.length_pos_iff.2 hne
      refine ih rest.length (by rw [List.length_append]; omega) hrest (fun name text hp => ?_) rfl
      exact ht name text (hp.trans (List.suffix_append _ _).isInfix)
    cases h with
    | nil => exact .nil
    | @slot index cs hi h =>
      rw [fillVariables_append (brace_notMem_slot index).1]
      exact .slot hi (later (slot index) cs rfl (List.cons_ne_nil _ _) h)
    | @char c cs hc h =>
      cases hs : simple? (c :: cs) with
      | none =>
        rw [fillVariables_char hs]
        exact .char hc (later [c] cs rfl (List.cons_ne_nil _ _) h)
      | some found =>
        obtain ⟨name, n⟩ := found
        obtain ⟨rest, htext, -, hn⟩ := simple?_eq_some hs
        have hsplit : c :: cs = (Part.placeholder name).print ++ rest := by
          rw [htext]
          simp [Part.print]
        have hfree : slotOpen ∉ (Part.placeholder name).print :=
          slotOpen_notMem_braces (slotOpen_notMem_of_isName hn)
        have hrest : Slotted _ rest := (hsplit ▸ h.char hc : Slotted _ (_ ++ rest)).drop hfree
        rw [hsplit, fillVariables_placeholder hn]
        refine Slotted.append (.of_notMem ?_) (later _ rest hsplit (List.cons_ne_nil _ _) hrest)
        change slotOpen ∉ (env.shown? name).getD _
        cases hshown : env.shown? name with
        | none => exact hfree
        | some text => exact ht name text (hsplit ▸ (List.prefix_append _ _).isInfix) hshown

/-- In a text whose slots are whole, exchanging a character for a text does not make a slot. -/
theorem restore_exchange_slotted (hparked : ∀ p ∈ parked, x ∉ p) (hx : ∀ index, x ∉ slot index)
    (h : Slotted parked.length cs) (ht : x ∈ cs → slotOpen ∉ text) :
    restore parked (exchange x text cs) = exchange x text (restore parked cs) := by
  induction h with
  | nil => rfl
  | @char c cs hc _ ih =>
    have hrest := ih fun hmem => ht (List.mem_cons_of_mem _ hmem)
    have hchar : ∀ cs, restore parked (c :: cs) = c :: restore parked cs :=
      fun cs => restore_append (show slotOpen ∉ [c] by simpa using Ne.symm hc) cs
    rw [hchar]
    by_cases hcx : c = x
    · subst hcx
      rw [exchange_self, exchange_self, restore_append (ht List.mem_cons_self), hrest]
    · rw [exchange_cons hcx, exchange_cons hcx, hchar, hrest]
  | @slot index cs hi _ ih =>
    have hrest := ih fun hmem => ht (List.mem_append_right _ hmem)
    obtain ⟨p, hp⟩ : ∃ p, parked[index]? = some p := ⟨_, List.getElem?_eq_getElem hi⟩
    rw [exchange_append, exchange_of_notMem (hx index), restore_slot hp, restore_slot hp,
      exchange_append, exchange_of_notMem (hparked p (List.mem_of_getElem? hp)), hrest]

/-- A text that is no part of a slot, whatever stands around it. -/
def Solid (text : List Char) : Prop :=
  slotOpen ∉ text ∧ ∃ c rest, text.dropWhile Text.isDigit = c :: rest ∧ c ≠ slotClose

theorem dropWhile_digits {ds : List Char} (hd : ds.all Char.isDigit = true) (rest : List Char) :
    (ds ++ slotClose :: rest).dropWhile Text.isDigit = slotClose :: rest := by
  have hdigits : ∀ c ∈ ds, Text.isDigit c = true :=
    fun c hc => isDigit_of_charIsDigit (List.all_eq_true.1 hd c hc)
  rw [List.dropWhile_append_of_pos hdigits, List.dropWhile_cons_of_neg (by decide +kernel)]

/-- Digits up to the end of a slot were there before a solid text was exchanged. -/
theorem eq_append_of_exchange (ht : Solid text) {ds rest : List Char}
    (hd : ds.all Char.isDigit = true) (h : exchange x text cs = ds ++ slotClose :: rest) :
    ∃ rest', cs = ds ++ slotClose :: rest' := by
  induction cs generalizing ds with
  | nil => exact absurd h (by simp [exchange])
  | cons c cs ih =>
    by_cases hc : c = x
    · obtain ⟨-, d, after, hdrop, hne⟩ := ht
      have hfirst := dropWhile_digits hd rest
      rw [← h, hc, exchange_self, List.dropWhile_append, hdrop] at hfirst
      exact absurd (List.cons.inj hfirst).1 hne
    · rw [exchange_cons hc] at h
      cases ds with
      | nil =>
        obtain ⟨rfl, -⟩ := List.cons.inj h
        exact ⟨cs, rfl⟩
      | cons d ds =>
        obtain ⟨rfl, hrest⟩ := List.cons.inj h
        simp only [List.all_cons, Bool.and_eq_true] at hd
        obtain ⟨rest', rfl⟩ := ih hd.2 hrest
        exact ⟨rest', rfl⟩

/-- Where no parked text returns, none does after a solid text was exchanged. -/
theorem lost_exchange (ht : Solid text) {c : Char}
    (hlost : ∀ ds rest, c :: cs = slotOpen :: (ds ++ slotClose :: rest) →
      (readDigits? ds).bind (parked[·]?) = none) (ds rest : List Char)
    (h : c :: exchange x text cs = slotOpen :: (ds ++ slotClose :: rest)) :
    (readDigits? ds).bind (parked[·]?) = none := by
  obtain ⟨rfl, htail⟩ := List.cons.inj h
  cases hread : readDigits? ds with
  | none => rfl
  | some index =>
    obtain ⟨rest', rfl⟩ := eq_append_of_exchange ht (digits_of_readDigits? hread).2 htail
    rw [← hread]
    exact hlost ds rest' rfl

theorem notMem_of_readDigits? {ds : List Char} {index : Nat} (h : readDigits? ds = some index)
    (hx : isPlainNumberChar x = false) : x ∉ ds := by
  intro hmem
  have hdigit := List.all_eq_true.1 (digits_of_readDigits? h).2 x hmem
  rw [isPlainNumberChar, hdigit] at hx
  exact Bool.noConfusion hx

/-- Exchanging a character for a solid text never makes a slot. -/
theorem restore_exchange_solid (hparked : ∀ p ∈ parked, x ∉ p)
    (hmarks : slotOpen ≠ x ∧ slotClose ≠ x) (hnumber : isPlainNumberChar x = false)
    (ht : Solid text) (cs : List Char) :
    restore parked (exchange x text cs) = exchange x text (restore parked cs) := by
  -- on the length, since a slot is passed in one step
  induction hlen : cs.length using Nat.strongRecOn generalizing cs with
  | ind len ih =>
    subst hlen
    cases cs with
    | nil => rfl
    | cons c cs =>
      have hrest := ih cs.length (by simp) cs rfl
      by_cases hc : c = x
      · subst hc
        have hchar : restore parked (c :: cs) = c :: restore parked cs :=
          restore_append (show slotOpen ∉ [c] by simpa using hmarks.1) cs
        rw [hchar, exchange_self, exchange_self, restore_append ht.1, hrest]
      rcases restore_cases parked c cs with ⟨ds, rest, p, htext, hreturn, hstep⟩ | ⟨hlost, hstep⟩
      · obtain ⟨index, hread, hget⟩ := Option.bind_eq_some_iff.1 hreturn
        have hfree : x ∉ ds := notMem_of_readDigits? hread hnumber
        have hshort : rest.length < (c :: cs).length := by
          rw [htext, List.length_cons, List.length_append, List.length_cons]
          omega
        rw [hstep, htext, exchange_cons hmarks.1, exchange_append, exchange_of_notMem hfree,
          exchange_cons hmarks.2, restore_found hreturn, ih _ hshort rest rfl, exchange_append,
          exchange_of_notMem (hparked p (List.mem_of_getElem? hget))]
      · rw [hstep, exchange_cons hc, exchange_cons hc, ← hrest]
        exact restore_lost (lost_exchange ht hlost)

/-! ### The whole rendering -/

/-- A text that only placeholders ask for is exchanged for a fresh character, up to slots: as a
whole if nothing is parked, if the text cannot be part of a slot, or if no placeholder brings the
character that opens one. -/
theorem exchange_rendered (env : Env) {a template : List Char} {x : Char} (s : String)
    (ht : slotOpen ∉ template) (ha : a ∉ env.patternNames template)
    (hx : Fresh env a template x) :
    let text := showText env.escape s
    let settled := settle env passLimit { text := template }
    let filled := fillVariables (env.bind a (String.ofList [x])) settled.text
    renderChars (env.bind a s) template = restore settled.parked (exchange x text filled) ∧
      renderChars (env.bind a (String.ofList [x])) template = restore settled.parked filled ∧
      (settled.parked = [] ∨ Solid text ∨
          (∀ name shown, (Part.placeholder name).print <:+: settled.text →
            (env.bind a s).shown? name = some shown → slotOpen ∉ shown) →
        renderChars (env.bind a s) template =
          exchange x text (renderChars (env.bind a (String.ofList [x])) template)) := by
  intro text settled filled
  have hsettle : ∀ t, settle (env.bind a t) passLimit { text := template } = settled :=
    fun t => settle_bind ha
  have hnot : x ∉ settled.text := hx.notMem_settle passLimit
  have htidy : settled.Tidy (x ∉ ·) := by
    refine Work.Tidy.settle (fun name hname t hshown => ?_) ⟨.of_notMem ht, by simp⟩
    exact hx.values name (fun he => ha (he ▸ hname)) t hshown
  have hrendered : renderChars (env.bind a s) template =
      restore settled.parked (exchange x text filled) := by
    unfold renderChars
    rw [hsettle]
    exact congrArg (restore settled.parked) (hx.fillVariables_bind hnot s)
  have hfresh : renderChars (env.bind a (String.ofList [x])) template =
      restore settled.parked filled := by
    unfold renderChars
    rw [hsettle]
  refine ⟨hrendered, hfresh, fun hcase => ?_⟩
  rw [hrendered, hfresh]
  rcases hcase with hnone | hsolid | hshown
  · rw [hnone, restore_nil, restore_nil]
  · exact restore_exchange_solid htidy.parked hx.marks hx.number hsolid filled
  · refine restore_exchange_slotted htidy.parked hx.notMem_slot ?_ fun hmem => ?_
    · refine slotted_fillVariables htidy.text fun name shown hp hname => ?_
      by_cases hn : name = a
      · subst hn
        rw [shown?_bind_self] at hname
        obtain rfl := Option.some.inj hname
        rw [hx.showText_single]
        simpa using hx.marks.1
      · refine hshown name shown hp ?_
        rwa [shown?_bind_of_ne hn] at hname ⊢
    · exact hshown a text (hx.placeholder_of_mem hnot hmem) shown?_bind_self

/-- A kind that no clause is for, and a name. -/
def zetaEnv : Env where
  locale := "en"
  escape := true
  vars := [("kind", .str "zeta")]

def zetaTemplate : List Char := "\x7bkind, select, a \x7bAlpha\x7d\x7d \x7bname\x7d".toList

theorem zeta_fresh : Fresh zetaEnv "name".toList zetaTemplate '*' where
  template := by decide
  marks := by decide
  number := by decide
  markup := by decide
  values := by
    intro name _ text hv
    have hkind : ∀ v, zetaEnv.value? name = some v → v = .str "zeta" := by
      intro v hfound
      simp only [Env.value?, zetaEnv, Dictionary.find?_cons, Dictionary.find?_nil] at hfound
      split at hfound
      · exact (Option.some.inj hfound).symm
      · simp at hfound
    obtain ⟨v, hfound, hdisplay⟩ := Option.bind_eq_some_iff.1 hv
    rw [hkind v hfound] at hdisplay
    rw [← Option.some.inj hdisplay]
    decide

/-- Markup and digits in front of the character that ends a slot do no harm. -/
theorem exchange_rendered_markup :
    slotOpen ∉ zetaTemplate ∧ "name".toList ∉ zetaEnv.patternNames zetaTemplate ∧
      Fresh zetaEnv "name".toList zetaTemplate '*' ∧ Solid (showText true "0<\ue001") ∧
      renderChars (zetaEnv.bind "name".toList "0<\ue001") zetaTemplate =
        exchange '*' (showText true "0<\ue001")
          (renderChars (zetaEnv.bind "name".toList "*") zetaTemplate) := by
  have ht : slotOpen ∉ zetaTemplate := by decide
  have ha : "name".toList ∉ zetaEnv.patternNames zetaTemplate := by decide +kernel
  have hsolid : Solid (showText true "0<\ue001") :=
    ⟨by decide, '&', "lt;\ue001".toList, by decide +kernel, by decide⟩
  exact ⟨ht, ha, zeta_fresh, hsolid,
    (exchange_rendered zetaEnv "0<\ue001" ht ha zeta_fresh).2.2 (.inr (.inl hsolid))⟩

/-- A text that is spelled like a slot gives way to the parked text. -/
theorem exchange_rendered_slot :
    slotOpen ∉ zetaTemplate ∧ slotClose ∉ zetaTemplate ∧
      "name".toList ∉ zetaEnv.patternNames zetaTemplate ∧
      Fresh zetaEnv "name".toList zetaTemplate '*' ∧
      render (zetaEnv.bind "name".toList "\ue0000\ue001") (String.ofList zetaTemplate) =
        "zeta zeta" ∧
      exchange '*' (showText true "\ue0000\ue001")
        (renderChars (zetaEnv.bind "name".toList "*") zetaTemplate) =
          "zeta \ue0000\ue001".toList :=
  ⟨by decide, by decide, by decide +kernel, zeta_fresh, by decide +kernel, by decide +kernel⟩

end Phrasebook.Icu
