import Phrasebook.Proofs.Icu.Nesting
import Phrasebook.Proofs.Text.Escaped
import Phrasebook.Proofs.Text.Tokens

/-!
# Rendering is compositional

One pass leaves no pattern in a message, whatever its nesting. Then the simple placeholders are
filled and the parked texts return, so `render_print` gives the text that the tree of the message
stands for.
-/

namespace Phrasebook.Icu

variable {env : Env} {name : List Char} {covered nested : Bool} {parked : List (List Char)}
  {kinds : List Kind}

/-! ### Passes -/

theorem Kind.rules_nil (kind : Kind) : kind.Rules [] := by
  cases kind <;> simp [Kind.Rules]

theorem resolve_print (kind : Kind) {m : Message} (h : m.Formed env covered parked kinds nested)
    (ho : kind = .ordinal → .plural ∉ kinds) :
    ∃ parked' m', resolve env kind ⟨m.print, parked⟩ = ⟨m'.print, parked'⟩ ∧
      Message.Formed env covered parked' (kinds.filter (· ≠ kind)) nested m' ∧
      (covered = true → parked' = parked) ∧
      m'.evalBy outermost env [] = m.evalBy outermost env [] := by
  obtain ⟨more, m', hrewrites, hformed, -, hmore, heval⟩ := h.sweeps kind ho Kind.Fills.none []
  rw [List.append_nil, Option.getD_none, filled_hash] at hrewrites
  rw [List.append_nil] at hformed
  refine ⟨_, m', hrewrites.resolve_eq, hformed, fun hc => ?_, heval [] kind.rules_nil⟩
  rw [hmore hc, List.append_nil]

theorem pass_print {m : Message} (h : m.Formed env covered parked passOrder nested) :
    ∃ parked' m', pass env ⟨m.print, parked⟩ = ⟨m'.print, parked'⟩ ∧
      Message.Formed env covered parked' [] nested m' ∧ (covered = true → parked' = parked) ∧
      m'.evalBy outermost env [] = m.evalBy outermost env [] := by
  obtain ⟨p₁, m₁, h₁, hformed₁, hparked₁, heval₁⟩ := resolve_print .plural h (by decide)
  obtain ⟨p₂, m₂, h₂, hformed₂, hparked₂, heval₂⟩ := resolve_print .select hformed₁ (by decide)
  obtain ⟨p₃, m₃, h₃, hformed₃, hparked₃, heval₃⟩ := resolve_print .ordinal hformed₂ (by decide)
  refine ⟨p₃, m₃, ?_, hformed₃, fun hc => ?_, heval₃.trans (heval₂.trans heval₁)⟩
  · rw [← h₃, ← h₂, ← h₁]
    rfl
  · rw [hparked₃ hc, hparked₂ hc, hparked₁ hc]

theorem rewrites_print (kind : Kind) {m : Message} (h : m.Formed env covered parked [] nested)
    (ps : List (List Char)) : Rewrites env kind m.print ps m.print ps := by
  induction h with
  | nil => exact Rewrites.refl List.not_mem_nil
  | literal hb _ _ _ ih => exact (Rewrites.refl hb.notMem).append ih
  | placeholder hn _ ih => exact (rewrites_placeholder hn ps).append ih
  | token hn hf _ _ ih => exact (rewrites_token hn hf ps).append ih
  | slot _ _ ih => exact (Rewrites.refl (noBrace_slot _).notMem).append ih
  | pattern hk => exact absurd hk List.not_mem_nil

/-- Without patterns there are no numbers for hashes to stand for. -/
theorem evalBy_of_no_pattern {m : Message} (h : m.Formed env covered parked [] nested) :
    m.evalBy outermost env [] = m.eval env ['#'] := by
  induction h with
  | nil => rfl
  | literal _ _ _ _ ih => rw [Message.evalBy, Message.eval, ih, Part.evalBy, Part.eval]; rfl
  | placeholder _ _ ih => rw [Message.evalBy, Message.eval, ih, Part.evalBy, Part.eval]
  | token _ _ _ _ ih => rw [Message.evalBy, Message.eval, ih, Part.evalBy, Part.eval]
  | slot _ _ ih => rw [Message.evalBy, Message.eval, ih, Part.evalBy, Part.eval]
  | pattern hk => exact absurd hk List.not_mem_nil

/-- A pass that no sweep of which changes anything. -/
theorem pass_eq_self {w : Work} (h : ∀ kind, resolve env kind w = w) : pass env w = w := by
  unfold pass passOrder
  rw [List.foldl_cons, h, List.foldl_cons, h, List.foldl_cons, h, List.foldl_nil]

theorem pass_of_no_pattern {m : Message} (h : m.Formed env covered parked [] nested)
    (ps : List (List Char)) : pass env ⟨m.print, ps⟩ = ⟨m.print, ps⟩ :=
  pass_eq_self fun kind => (rewrites_print kind h ps).resolve_eq

theorem settle_of_pass_eq {w : Work} (h : pass env w = w) (n : Nat) : settle env n w = w := by
  cases n with
  | zero => rfl
  | succ n => rw [settle, h, if_pos rfl]

/-- One pass settles a message, each hash of which gets the outermost number. -/
theorem settle_formed {m : Message} (h : m.Formed env covered parked passOrder nested) (n : Nat) :
    ∃ parked' m', settle env (n + 1) ⟨m.print, parked⟩ = ⟨m'.print, parked'⟩ ∧
      Message.Formed env covered parked' [] nested m' ∧ (covered = true → parked' = parked) ∧
      m'.eval env ['#'] = m.evalBy outermost env [] := by
  obtain ⟨parked', m', hpass, hformed, hparked, heval⟩ := pass_print h
  refine ⟨parked', m', ?_, hformed, hparked, (evalBy_of_no_pattern hformed).symm.trans heval⟩
  have hagain := settle_of_pass_eq (pass_of_no_pattern hformed parked') n
  rw [settle, hpass]
  dsimp only
  rw [hagain]
  split <;> rfl

/-- One pass settles a message whose hashes have one number at most to stand for. -/
theorem settle_print {m : Message} (h : m.Sound env parked passOrder nested 0) (n : Nat) :
    ∃ parked' m', settle env (n + 1) ⟨m.print, parked⟩ = ⟨m'.print, parked'⟩ ∧
      Message.Formed env false parked' [] nested m' ∧ m'.eval env ['#'] = m.eval env ['#'] := by
  obtain ⟨parked', m', hsettle, hformed, -, heval⟩ := settle_formed h.formed n
  have hlength : ∀ ks ∈ m.hashKinds [], ks.length ≤ 1 :=
    Message.hashKinds_of_wellFormed h.wellFormed
  have hcounts : (m.hashKinds []).all innermostCounts = true :=
    List.all_eq_true.2 fun ks hks => innermostCounts_of_length (hlength ks hks)
  exact ⟨parked', m', hsettle, hformed, heval.trans (evalBy_outermost_eq hcounts)⟩

/-! ### Placeholders -/

theorem simple?_of_ne {c : Char} (h : c ≠ '\x7b') (cs : List Char) : simple? (c :: cs) = none := by
  unfold simple?
  split
  · rename_i he
    exact absurd (List.cons.inj he).1 h
  · rfl

theorem simple?_eq_some {cs : List Char} {n : Nat} (h : simple? cs = some (name, n)) :
    ∃ rest, cs = '\x7b' :: (name ++ '\x7d' :: rest) ∧ n = name.length + 2 ∧
      isName name = true := by
  unfold simple? at h
  split at h
  · rename_i rest
    dsimp only at h
    split at h
    · rename_i c cs' after hname hafter
      obtain ⟨rfl, rfl⟩ := Prod.mk.inj (Option.some.inj h)
      rw [drop_length_takeWhile] at hafter
      refine ⟨after, ?_, rfl, ?_⟩
      · rw [← hafter, List.takeWhile_append_dropWhile]
      · rw [isName, List.all_takeWhile, hname]
        rfl
    · simp at h
  · simp at h

theorem fillVariables_append {cs : List Char} (h : '\x7b' ∉ cs) (rest : List Char) :
    fillVariables env (cs ++ rest) = cs ++ fillVariables env rest :=
  Text.replaceTokens_append
    (fun _ hc _ => simple?_of_ne (fun he => h (he ▸ hc)) _) rest

theorem fillVariables_eq_self {cs : List Char} (h : '\x7b' ∉ cs) : fillVariables env cs = cs := by
  have hall : fillVariables env (cs ++ []) = cs ++ fillVariables env [] := fillVariables_append h []
  rwa [List.append_nil, show fillVariables env [] = [] from rfl, List.append_nil] at hall

theorem takeWhile_isWord_name (hn : isName name = true) {c : Char} (hc : Text.isWord c = false)
    (rest : List Char) : (name ++ c :: rest).takeWhile Text.isWord = name := by
  rw [List.takeWhile_append_of_pos (by simpa using isWord_of_isName hn),
    List.takeWhile_cons_of_neg (by simp [hc]), List.append_nil]

theorem fillVariables_placeholder (hn : isName name = true) (rest : List Char) :
    fillVariables env ((Part.placeholder name).print ++ rest) =
      (Part.placeholder name).eval env ['#'] ++ fillVariables env rest := by
  have hread : simple? ((Part.placeholder name).print ++ rest) =
      some (name, (Part.placeholder name).print.length) := by
    obtain ⟨c, cs, rfl⟩ := List.exists_cons_of_ne_nil (ne_nil_of_isName hn)
    rw [Part.print, List.append_assoc, List.cons_append, List.singleton_append, simple?,
      takeWhile_isWord_name hn (by decide), List.drop_left]
    simp
  exact Text.replaceTokens_token (List.cons_ne_nil _ _) hread

theorem fillVariables_token (hn : isName name = true) {format : List Char}
    (hf : ∀ c ∈ format, isFormatChar c = true) (rest : List Char) :
    fillVariables env ((Part.token name format).print ++ rest) =
      (Part.token name format).print ++ fillVariables env rest := by
  have hread : simple? ('\x7b' :: (name ++ '|' :: (format ++ '\x7d' :: rest))) = none := by
    obtain ⟨c, cs, rfl⟩ := List.exists_cons_of_ne_nil (ne_nil_of_isName hn)
    rw [simple?, takeWhile_isWord_name hn (by decide), List.drop_left]
    rfl
  have hinner : '\x7b' ∉ name ++ '|' :: (format ++ ['\x7d']) := by
    simp [(noBrace_of_isName hn).notMem, (noBrace_of_isFormatChar hf).notMem]
  have htext : ∀ t, (Part.token name format).print ++ t =
      '\x7b' :: (name ++ '|' :: (format ++ ['\x7d']) ++ t) := by
    intro t
    simp [Part.print]
  have hcons : fillVariables env ('\x7b' :: (name ++ '|' :: (format ++ ['\x7d']) ++ rest)) =
      '\x7b' :: fillVariables env (name ++ '|' :: (format ++ ['\x7d']) ++ rest) := by
    refine Text.replaceTokens_char ?_
    simpa using hread
  rw [htext, htext, hcons, fillVariables_append hinner]

/-! ### Parked texts -/

theorem slot?_of_ne {c : Char} (h : c ≠ slotOpen) (cs : List Char) : slot? (c :: cs) = none := by
  rw [slot?]
  split
  · rw [if_neg]
    exact fun hc => h hc.1
  · rfl

/-- A slot is a number between the characters that begin and end slots. -/
theorem eq_append_of_slot? {cs ds : List Char} {n : Nat} (h : slot? cs = some (ds, n)) :
    ∃ rest, cs = slotOpen :: (ds ++ slotClose :: rest) ∧ n = ds.length + 2 ∧
      ds.all Text.isDigit = true ∧ ds ≠ [] := by
  unfold slot? at h
  split at h
  · rename_i c rest
    dsimp only at h
    split at h
    · rename_i d digits close after hds hafter
      split at h
      · rename_i hc
        obtain ⟨rfl, rfl⟩ := hc
        obtain ⟨rfl, rfl⟩ := Prod.mk.inj (Option.some.inj h)
        rw [drop_length_takeWhile] at hafter
        refine ⟨after, ?_, rfl, List.all_takeWhile, ?_⟩
        · rw [← hafter, List.takeWhile_append_dropWhile]
        · rw [hds]
          exact List.cons_ne_nil _ _
      · simp at h
    · simp at h
  · simp at h

theorem restore_nil (cs : List Char) : restore [] cs = cs :=
  Text.replaceTokens_eq_self fun ds _ _ => by cases readDigits? ds <;> rfl

theorem restore_append {cs : List Char} (h : slotOpen ∉ cs) (rest : List Char) :
    restore parked (cs ++ rest) = cs ++ restore parked rest :=
  Text.replaceTokens_append (fun _ hc _ => slot?_of_ne (fun he => h (he ▸ hc)) _) rest

theorem restore_eq_self {cs : List Char} (h : slotOpen ∉ cs) : restore parked cs = cs := by
  have hall : restore parked (cs ++ []) = cs ++ restore parked [] := restore_append h []
  rwa [List.append_nil, show restore parked [] = [] from rfl, List.append_nil] at hall

theorem isDigit_of_charIsDigit {c : Char} (h : c.isDigit = true) : Text.isDigit c = true := by
  have hascii : (0x30, 0x39) ∈ Text.digitRanges := by decide
  refine List.any_eq_true.2 ⟨_, hascii, ?_⟩
  simp only [Char.isDigit, Bool.and_eq_true, decide_eq_true_eq] at h ⊢
  exact h

theorem readDigits?_natDigits (n : Nat) : readDigits? (Decimal.natDigits n) = some n := by
  have hall : (Decimal.natDigits n).all Char.isDigit = true :=
    List.all_eq_true.2 fun _ h => Decimal.isDigit_of_mem_natDigits h
  have hvalue : digitsValue (Decimal.natDigits n) = n := Nat.ofDigitChars_ten_toDigits
  unfold readDigits?
  rw [hall, hvalue]
  simp [Decimal.natDigits, Nat.toDigits_ne_nil]

theorem digits_of_readDigits? {ds : List Char} {n : Nat} (h : readDigits? ds = some n) :
    ds ≠ [] ∧ ds.all Char.isDigit = true := by
  unfold readDigits? at h
  split at h
  · rename_i hd
    simpa using hd
  · simp at h

theorem slot?_digits {ds : List Char} (hne : ds ≠ []) (hd : ds.all Char.isDigit = true)
    (rest : List Char) :
    slot? (slotOpen :: (ds ++ slotClose :: rest)) = some (ds, ds.length + 2) := by
  have hdigits : ∀ c ∈ ds, Text.isDigit c = true :=
    fun c hc => isDigit_of_charIsDigit (List.all_eq_true.1 hd c hc)
  have htake : (ds ++ slotClose :: rest).takeWhile Text.isDigit = ds := by
    rw [List.takeWhile_append_of_pos hdigits, List.takeWhile_cons_of_neg (by decide +kernel),
      List.append_nil]
  obtain ⟨d, digits, rfl⟩ := List.exists_cons_of_ne_nil hne
  rw [slot?, htake, List.drop_left]
  simp

/-- A parked text takes the place of its slot. -/
theorem restore_found {ds p : List Char} (hp : (readDigits? ds).bind (parked[·]?) = some p)
    (rest : List Char) :
    restore parked (slotOpen :: (ds ++ slotClose :: rest)) = p ++ restore parked rest := by
  obtain ⟨_, hread, -⟩ := Option.bind_eq_some_iff.1 hp
  obtain ⟨hne, hd⟩ := digits_of_readDigits? hread
  have htext : slotOpen :: (ds ++ slotClose :: rest) = slotOpen :: (ds ++ [slotClose]) ++ rest := by
    simp
  have hslot : slot? (slotOpen :: (ds ++ [slotClose]) ++ rest) =
      some (ds, (slotOpen :: (ds ++ [slotClose])).length) := by
    simpa using slot?_digits hne hd rest
  have hstep : restore parked (slotOpen :: (ds ++ [slotClose]) ++ rest) =
      ((readDigits? ds).bind (parked[·]?)).getD _ ++ restore parked rest :=
    Text.replaceTokens_token (List.cons_ne_nil _ _) hslot
  rw [htext, hstep, hp]
  rfl

/-- Where no parked text returns, the first character stays. -/
theorem restore_lost {c : Char} {cs : List Char}
    (h : ∀ ds rest, c :: cs = slotOpen :: (ds ++ slotClose :: rest) →
      (readDigits? ds).bind (parked[·]?) = none) :
    restore parked (c :: cs) = c :: restore parked cs := by
  cases hs : slot? (c :: cs) with
  | none => exact Text.replaceTokens_char hs
  | some found =>
    obtain ⟨ds, n⟩ := found
    obtain ⟨rest, htext, rfl, hd, -⟩ := eq_append_of_slot? hs
    have hlost := h ds rest htext
    have hfree : slotOpen ∉ ds ++ [slotClose] := by
      simp only [List.mem_append, List.mem_singleton, not_or]
      refine ⟨fun hmem => ?_, by decide⟩
      exact absurd (List.all_eq_true.1 hd _ hmem) (by decide +kernel)
    have hsource : slotOpen :: (ds ++ slotClose :: rest) =
        slotOpen :: (ds ++ [slotClose]) ++ rest := by
      simp
    rw [htext, hsource] at hs
    have hstep : restore parked (slotOpen :: (ds ++ [slotClose]) ++ rest) =
        ((readDigits? ds).bind (parked[·]?)).getD (slotOpen :: (ds ++ [slotClose])) ++
          restore parked rest :=
      Text.replaceTokens_token (List.cons_ne_nil _ _) (by simpa using hs)
    obtain ⟨rfl, rfl⟩ := List.cons.inj htext
    have hrest : restore parked (ds ++ slotClose :: rest) =
        ds ++ [slotClose] ++ restore parked rest := by
      rw [← restore_append hfree, List.append_assoc, List.singleton_append]
    rw [hsource, hstep, hlost, hrest]
    rfl

/-- Either a parked text returns at the start of a text, or its first character stays. -/
theorem restore_cases (parked : List (List Char)) (c : Char) (cs : List Char) :
    (∃ ds rest p, c :: cs = slotOpen :: (ds ++ slotClose :: rest) ∧
      (readDigits? ds).bind (parked[·]?) = some p ∧
      restore parked (c :: cs) = p ++ restore parked rest) ∨
    (∀ ds rest, c :: cs = slotOpen :: (ds ++ slotClose :: rest) →
      (readDigits? ds).bind (parked[·]?) = none) ∧
      restore parked (c :: cs) = c :: restore parked cs := by
  by_cases h : ∃ ds rest p, c :: cs = slotOpen :: (ds ++ slotClose :: rest) ∧
      (readDigits? ds).bind (parked[·]?) = some p
  · obtain ⟨ds, rest, p, htext, hp⟩ := h
    exact .inl ⟨ds, rest, p, htext, hp, htext ▸ restore_found hp rest⟩
  · have hlost : ∀ ds rest, c :: cs = slotOpen :: (ds ++ slotClose :: rest) →
        (readDigits? ds).bind (parked[·]?) = none := fun ds rest htext =>
      Option.eq_none_iff_forall_ne_some.2 fun p hp => h ⟨ds, rest, p, htext, hp⟩
    exact .inr ⟨hlost, restore_lost hlost⟩

theorem restore_slot {index : Nat} {text : List Char} (h : parked[index]? = some text)
    (rest : List Char) : restore parked (slot index ++ rest) = text ++ restore parked rest := by
  have hfound : (readDigits? (Decimal.natDigits index)).bind (parked[·]?) = some text := by
    rw [readDigits?_natDigits]
    exact h
  have hslot : slot index ++ rest =
      slotOpen :: (Decimal.natDigits index ++ slotClose :: rest) := by
    simp [slot]
  rw [hslot, restore_found hfound]

/-! ### The whole rendering -/

theorem slotOpen_notMem_of_isName (hn : isName name = true) : slotOpen ∉ name := by
  intro hmem
  have hword : Text.isWord slotOpen = true := List.all_eq_true.1 (isWord_of_isName hn) _ hmem
  exact absurd hword (by decide +kernel)

/-- Escaping brings nothing into a text but entities. -/
theorem notMem_showText {c : Char} (hc : ∀ e ∈ Text.entities, c ∉ e) {text : String}
    (h : c ∉ text.toList) (escape : Bool) : c ∉ showText escape text := by
  unfold showText
  split
  · intro hmem
    obtain ⟨d, hd, hesc⟩ := List.mem_flatMap.1 hmem
    rcases Text.mem_of_mem_escapeChar hesc with rfl | ⟨e, he, hmem⟩
    · exact h hd
    · exact hc e he hmem
  · exact h

theorem slotOpen_notMem_showText {text : String} (h : slotOpen ∉ text.toList) (escape : Bool) :
    slotOpen ∉ showText escape text :=
  notMem_showText (by decide) h escape

theorem slotOpen_notMem_braces {cs : List Char} (h : slotOpen ∉ cs) :
    slotOpen ∉ '\x7b' :: cs ++ ['\x7d'] := by
  simp only [List.cons_append, List.mem_cons, List.mem_append, List.not_mem_nil, or_false, not_or]
  exact ⟨by decide, h, by decide⟩

theorem slotOpen_notMem_placeholder (hp : env.Plain) (hn : isName name = true) :
    slotOpen ∉ (Part.placeholder name).eval env ['#'] := by
  have hwritten := slotOpen_notMem_braces (slotOpen_notMem_of_isName hn)
  rw [Part.eval]
  cases hv : env.value? name with
  | none => exact hwritten
  | some v =>
    cases ht : v.display with
    | none =>
      rw [Option.bind_some, ht]
      exact hwritten
    | some text =>
      rw [Option.bind_some, ht]
      exact slotOpen_notMem_showText (hp _ v text hv ht) env.escape

/-- Filling the placeholders and returning the parked texts. -/
theorem restore_print (hp : env.Plain) {m : Message} (h : m.Formed env false parked [] nested) :
    restore parked (fillVariables env m.print) = m.eval env ['#'] := by
  induction h with
  | nil => rfl
  | literal hb _ hs _ ih =>
    rw [Message.print, Message.eval, Part.print, Part.eval, fillHash_self,
      fillVariables_append hb.notMem, restore_append (hs rfl), ih]
  | placeholder hn _ ih =>
    rw [Message.print, Message.eval, fillVariables_placeholder hn,
      restore_append (slotOpen_notMem_placeholder hp hn), ih]
  | @token _ name format m hn hf hs _ ih =>
    have hinner : slotOpen ∉ name ++ '|' :: format := by
      simp only [List.mem_append, List.mem_cons, not_or]
      exact ⟨slotOpen_notMem_of_isName hn, by decide, hs rfl⟩
    have hslot : slotOpen ∉ (Part.token name format).print := by
      simpa [Part.print] using slotOpen_notMem_braces hinner
    rw [Message.print, Message.eval, fillVariables_token hn hf, restore_append hslot, ih]
    rfl
  | slot hs _ ih =>
    rw [Message.print, Message.eval, Part.print, Part.eval,
      fillVariables_append (noBrace_slot _).notMem, restore_slot hs, ih]
  | pattern hk => exact absurd hk List.not_mem_nil

/-- A written message renders to what its tree stands for, at every nesting, in every locale and
with or without escaping, as long as no number token has the character that opens a slot. -/
theorem render_print (env : Env) (hp : env.Plain) (m : Message)
    (hw : m.wellFormed false 0 = true) (hs : m.served env = true) (hk : m.keepsSlots = true) :
    render env (String.ofList m.print) = m.value env := by
  have hfits : ∀ q ∈ m.parts, q.Fits env := by
    intro q hq
    have hserved := List.all_eq_true.1 hs q hq
    have hkept := List.all_eq_true.1 hk q hq
    cases q with
    | token name format => simpa [Part.Fits] using hkept
    | pattern kind name arms => simpa [Part.Fits] using hserved
    | _ => trivial
  have hsound : m.Sound env [] passOrder false 0 := Message.sound_of_wellFormed hw hfits
  obtain ⟨parked, m', hsettle, hsound', heval⟩ := settle_print hsound 31
  unfold render renderChars Message.value
  rw [String.toList_ofList, show passLimit = 31 + 1 from rfl, hsettle]
  dsimp only
  rw [restore_print hp hsound', heval]

theorem slotOpen_notMem_display_int {n : Int} {text : String}
    (h : (Value.int n).display = some text) : slotOpen ∉ text.toList := by
  rw [← Option.some.inj h, plainNumber, String.toList_ofList]
  exact notMem_plainChars (by decide) _

/-- Two texts and a count. -/
def guestEnv : Env where
  locale := "en"
  escape := true
  vars := [("count", .int 3), ("guest", .str "close"), ("host", .str "her")]

theorem guestEnv_plain : guestEnv.Plain := by
  intro name v text hv hd
  simp only [guestEnv, Dictionary.find?_cons, Dictionary.find?_nil] at hv
  split at hv
  · rw [← Option.some.inj hv] at hd
    exact slotOpen_notMem_display_int hd
  · split at hv
    · rw [← Option.some.inj hv] at hd
      rw [← Option.some.inj hd]
      decide
    · split at hv
      · rw [← Option.some.inj hv] at hd
        rw [← Option.some.inj hd]
        decide
      · simp at hv

/-- A select in a select, with a plural beside it. -/
def guestMessage : Message :=
  [.pattern .select "host".toList
    [("her".toList,
      [.literal "Her ".toList,
        .pattern .select "guest".toList
          [("close".toList, [.literal "dear ".toList, .placeholder "guest".toList]),
            ("other".toList, [.pattern .plural "count".toList
              [("one".toList, [.literal "guest".toList]),
                ("other".toList, [.literal "# guests".toList])]])],
        .token "count".toList "number".toList]),
      ("other".toList, [.pattern .ordinal "count".toList [("other".toList, [])]])]]

/-- The clauses of both selects are picked. -/
theorem render_guestMessage :
    render guestEnv (String.ofList guestMessage.print) = "Her dear close{count|number}" :=
  (render_print guestEnv guestEnv_plain guestMessage (by decide +kernel) (by decide +kernel)
    (by decide +kernel)).trans (by decide +kernel)

/-- A select without a fitting clause, and a number token whose format is the first slot. -/
def slotMessage : Message :=
  [.pattern .select "host".toList [("them".toList, [.literal "Their".toList])],
    .token "count".toList (slot 0)]

/-- The parked text also takes the place of the slot that was written in the format. -/
theorem render_slotMessage :
    guestEnv.Plain ∧ slotMessage.wellFormed false 0 = true ∧
      slotMessage.served guestEnv = true ∧
      render guestEnv (String.ofList slotMessage.print) = "her{count|her}" ∧
      slotMessage.value guestEnv ≠ "her{count|her}" :=
  ⟨guestEnv_plain, by decide +kernel, by decide +kernel, by decide +kernel, by decide +kernel⟩

end Phrasebook.Icu
