import Phrasebook.Proofs.Icu.Inert

/-!
# Patterns that are left as written

A pattern whose value is of no use keeps its head and its closing brace. What is between them is
rendered like a message of its own: `unresolved_pattern` says so for any balanced options, and that
they stay as written if no name in them has a value.
-/

namespace Phrasebook.Icu

variable {env : Env} {kind : Kind} {name front back : List Char} {parked : List (List Char)}

/-- The text of a pattern up to its options. -/
def patternHead (kind : Kind) (name blanks : List Char) : List Char :=
  '\x7b' :: (name ++ ',' :: (blanks ++ (kind.keyword ++ [','])))

theorem choose_eq_none (h : env.serves kind name = false) (options : List Char) :
    choose env kind (env.value? name) options = none := by
  by_cases hk : kind.isNumeric = true
  · rw [Env.serves, if_pos hk, Option.isSome_eq_false_iff, Option.isNone_iff_eq_none] at h
    rw [choose_numeric hk, h]
    rfl
  · obtain rfl : kind = .select := by
      cases kind <;> simp [Kind.isNumeric] at hk ⊢
    rw [Env.serves, if_neg hk, Option.isSome_eq_false_iff, Option.isNone_iff_eq_none] at h
    unfold choose
    simp [h]

theorem replacement?_eq_none (h : env.serves kind name = false) (cs : List Char) :
    replacement? env kind name cs = none := by
  unfold replacement?
  cases closing 0 cs with
  | none => rfl
  | some found => exact congrArg (Option.map (·, found.2)) (choose_eq_none h found.1)

/-! ### Sweeps around balanced options -/

/-- No sweep changes the text, whatever follows. -/
def Kept (env : Env) (cs : List Char) : Prop :=
  ∀ kind ps, Rewrites env kind cs ps cs ps

theorem Kept.append {a b : List Char} (ha : Kept env a) (hb : Kept env b) : Kept env (a ++ b) :=
  fun kind ps => (ha kind ps).append (hb kind ps)

theorem marker?_head {blanks : List Char} (hn : isName name = true)
    (hb : blanks.all Text.isBlank = true) (kind other : Kind) (rest : List Char) :
    marker? other (patternHead kind name blanks ++ rest) =
      if other = kind then
        some (name, patternHead kind name blanks ++ rest.takeWhile Text.isBlank)
      else none := by
  have htext : patternHead kind name blanks ++ rest =
      '\x7b' :: (name ++ ',' :: (blanks ++ (kind.keyword ++ ',' :: rest))) := by
    simp [patternHead]
  have hword : ∀ t, (kind.keyword ++ t).dropWhile Text.isBlank = kind.keyword ++ t ∧
      (kind.keyword ++ t).takeWhile Text.isBlank = [] := by
    intro t
    cases kind <;> exact ⟨rfl, rfl⟩
  have hblanks : ∀ c ∈ blanks, Text.isBlank c = true := by simpa using hb
  rw [htext, marker?_comma (ne_nil_of_isName hn) (isWord_of_isName hn),
    List.dropWhile_append_of_pos hblanks, List.takeWhile_append_of_pos hblanks,
    (hword _).1, (hword _).2]
  by_cases hk : other = kind
  · subst hk
    rw [if_pos rfl, if_pos (List.isPrefixOf_iff_prefix.2 ⟨rest, by simp⟩)]
    rw [show other.keyword ++ ',' :: rest = other.keyword ++ [','] ++ rest by simp,
      List.drop_left' (by simp)]
    simp [patternHead]
  · rw [if_neg hk, if_neg]
    cases kind <;> cases other <;> first | exact absurd rfl hk | exact fun h => Bool.noConfusion h

theorem noBrace_patternHead_tail (kind : Kind) {blanks : List Char} (hn : isName name = true)
    (hb : blanks.all Text.isBlank = true) : NoBrace (patternHead kind name blanks).tail :=
  noBrace_head kind (isWord_of_isName hn) hb rfl

/-- The head of a pattern whose value is of no use. -/
theorem kept_head {blanks : List Char} (hn : isName name = true)
    (hb : blanks.all Text.isBlank = true) (hv : env.serves kind name = false) :
    Kept env (patternHead kind name blanks) := by
  intro other ps
  by_cases hk : other = kind
  · subst hk
    intro rest
    -- the sweep also passes the blanks behind the head
    have hmore : NoBrace (rest.takeWhile Text.isBlank) := noBrace_of_isBlank List.all_takeWhile
    have hm := marker?_head hn hb other other rest
    rw [if_pos rfl] at hm
    have hdrop : (patternHead other name blanks ++ rest).drop
        (patternHead other name blanks ++ rest.takeWhile Text.isBlank).length =
          rest.dropWhile Text.isBlank := by
      rw [List.length_append, List.drop_append, List.drop_eq_nil_of_le (by omega),
        List.nil_append, Nat.add_sub_cancel_left, drop_length_takeWhile]
    have hblanks : resolve env other ⟨rest, ps⟩ =
        (resolve env other ⟨rest.dropWhile Text.isBlank, ps⟩).behind
          (rest.takeWhile Text.isBlank) := by
      have hrefl : Rewrites env other (rest.takeWhile Text.isBlank) ps _ ps :=
        .refl hmore.notMem
      have hall := hrefl (rest.dropWhile Text.isBlank)
      rwa [List.takeWhile_append_dropWhile] at hall
    rw [resolve_skip hm (replacement?_eq_none hv _), hdrop, hblanks, behind_behind]
  · refine Rewrites.cons (fun rest => ?_) (.refl (noBrace_patternHead_tail kind hn hb).notMem)
    have hm := marker?_head hn hb kind other rest
    rwa [if_neg hk] at hm

theorem resolve_around (hf : Kept env front) (hb : '\x7b' ∉ back) (kind : Kind) {a : List Char}
    (ha : Balanced a) (ps : List (List Char)) :
    ∃ b qs, Balanced b ∧ resolve env kind ⟨a, ps⟩ = ⟨b, qs⟩ ∧
      resolve env kind ⟨front ++ a ++ back, ps⟩ = ⟨front ++ b ++ back, qs⟩ := by
  obtain ⟨b, qs, hr, hbal⟩ := ha.rewrites env kind ps
  exact ⟨b, qs, hbal, hr.resolve_eq, (((hf kind ps).append hr).append (.refl hb)).resolve_eq⟩

theorem pass_around (hf : Kept env front) (hb : '\x7b' ∉ back) {a : List Char} (ha : Balanced a)
    (ps : List (List Char)) :
    ∃ b qs, Balanced b ∧ pass env ⟨a, ps⟩ = ⟨b, qs⟩ ∧
      pass env ⟨front ++ a ++ back, ps⟩ = ⟨front ++ b ++ back, qs⟩ := by
  obtain ⟨b₁, p₁, hb₁, h₁, h₁'⟩ := resolve_around hf hb .plural ha ps
  obtain ⟨b₂, p₂, hb₂, h₂, h₂'⟩ := resolve_around hf hb .select hb₁ p₁
  obtain ⟨b₃, p₃, hb₃, h₃, h₃'⟩ := resolve_around hf hb .ordinal hb₂ p₂
  refine ⟨b₃, p₃, hb₃, ?_, ?_⟩
  · rw [← h₃, ← h₂, ← h₁]
    rfl
  · rw [← h₃', ← h₂', ← h₁']
    rfl

/-- Around balanced options, texts that no sweep changes make no difference. -/
theorem settle_around (hf : Kept env front) (hb : '\x7b' ∉ back) (n : Nat) {a : List Char}
    (ha : Balanced a) (ps : List (List Char)) :
    ∃ b qs, Balanced b ∧ settle env n ⟨a, ps⟩ = ⟨b, qs⟩ ∧
      settle env n ⟨front ++ a ++ back, ps⟩ = ⟨front ++ b ++ back, qs⟩ := by
  induction n generalizing a ps with
  | zero => exact ⟨a, ps, ha, rfl, rfl⟩
  | succ n ih =>
    obtain ⟨b, qs, hbal, hin, hout⟩ := pass_around hf hb ha ps
    have hsame : front ++ b ++ back = front ++ a ++ back ↔ b = a := by
      rw [List.append_left_inj, List.append_right_inj]
    simp only [settle, hin, hout, hsame]
    by_cases he : b = a
    · rw [if_pos he, if_pos he]
      exact ⟨b, qs, hbal, rfl, rfl⟩
    · rw [if_neg he, if_neg he]
      exact ih hbal qs

/-! ### Placeholders in balanced options -/

theorem fillVariables_char {c : Char} {cs : List Char} (h : simple? (c :: cs) = none) :
    fillVariables env (c :: cs) = c :: fillVariables env cs :=
  Text.replaceTokens_char h

/-- The end of a name in front of a closing brace is the brace that closes the placeholder. -/
theorem simple?_balanced {a rest : List Char} {n : Nat} (ha : Balanced a)
    (h : simple? ('\x7b' :: (a ++ '\x7d' :: rest)) = some (name, n)) : a = name := by
  obtain ⟨tail, htext, -, hn⟩ := simple?_eq_some h
  have hname : Balanced name := .of_noBrace (noBrace_of_isName hn)
  have hfirst := ha.closing_eq rest
  rw [(List.cons.inj htext).2, hname.closing_eq] at hfirst
  exact (Prod.mk.inj (Option.some.inj hfirst)).1.symm

theorem fillVariables_balanced {a : List Char} (ha : Balanced a) (rest : List Char) :
    fillVariables env (a ++ rest) = fillVariables env a ++ fillVariables env rest := by
  induction a, ha using Balanced.induction generalizing rest with
  | nil => rfl
  | cons c a ho _ _ ih =>
    rw [List.cons_append, fillVariables_char (simple?_of_ne ho _), fillVariables_char
      (simple?_of_ne ho _), ih, List.cons_append]
  | braces a d ha hd _ ih =>
    have hclose : ∀ t, fillVariables env ('\x7d' :: t) = '\x7d' :: fillVariables env t :=
      fun t => fillVariables_char (simple?_of_ne (by decide) t)
    have htext : '\x7b' :: (a ++ '\x7d' :: d) ++ rest = '\x7b' :: (a ++ '\x7d' :: (d ++ rest)) := by
      simp
    rw [htext]
    by_cases hn : isName a = true
    · have hfill : ∀ t, fillVariables env ('\x7b' :: (a ++ '\x7d' :: t)) =
          (Part.placeholder a).eval env ['#'] ++ fillVariables env t := by
        intro t
        rw [← fillVariables_placeholder hn]
        simp [Part.print]
      rw [hfill, hfill, ih d hd (by omega), List.append_assoc]
    · have hread : ∀ t, simple? ('\x7b' :: (a ++ '\x7d' :: t)) = none := by
        intro t
        cases hs : simple? ('\x7b' :: (a ++ '\x7d' :: t)) with
        | none => rfl
        | some found =>
          obtain ⟨name, n⟩ := found
          obtain ⟨-, -, -, hname⟩ := simple?_eq_some hs
          exact absurd (simple?_balanced ha hs ▸ hname) hn
      rw [fillVariables_char (hread _), fillVariables_char (hread _), ih a ha (by omega),
        ih a ha (by omega), hclose, hclose, ih d hd (by omega)]
      simp

theorem fillVariables_head {blanks : List Char} (hn : isName name = true)
    (hb : blanks.all Text.isBlank = true) (rest : List Char) :
    fillVariables env (patternHead kind name blanks ++ rest) =
      patternHead kind name blanks ++ fillVariables env rest := by
  have hread : simple? (patternHead kind name blanks ++ rest) = none := by
    cases hs : simple? (patternHead kind name blanks ++ rest) with
    | none => rfl
    | some found =>
      obtain ⟨other, n⟩ := found
      obtain ⟨tail, htext, -, hother⟩ := simple?_eq_some hs
      have hstop : ∀ t, (other ++ '\x7d' :: t).dropWhile Text.isWord = '\x7d' :: t := by
        intro t
        rw [List.dropWhile_append_of_pos (by simpa using isWord_of_isName hother),
          List.dropWhile_cons_of_neg (by decide)]
      have hcomma := dropWhile_isWord_comma (isWord_of_isName hn)
        (blanks ++ (kind.keyword ++ ',' :: rest))
      have hin := (List.cons.inj htext).2
      rw [show name ++ ',' :: (blanks ++ (kind.keyword ++ ',' :: rest)) =
        other ++ '\x7d' :: tail by rw [← hin]; simp, hstop] at hcomma
      exact absurd (List.cons.inj hcomma).1 (by decide)
  have hinner := (noBrace_patternHead_tail kind hn hb).notMem
  exact (fillVariables_char hread).trans (congrArg _ (fillVariables_append hinner rest))

/-! ### Parked texts around a pattern -/

/-- Parked texts return apart on either side of a character that no slot has. -/
theorem restore_append_stop {c : Char} (ho : c ≠ slotOpen) (hc : c ≠ slotClose)
    (hd : Text.isDigit c = false) (cs rest : List Char) :
    restore parked (cs ++ c :: rest) = restore parked cs ++ c :: restore parked rest := by
  refine Text.replaceTokens_append_stop (fun rest => slot?_of_ne ho rest) ?_ ?_ cs rest
  · intro d cs rest
    rw [slot?, slot?, drop_length_takeWhile, drop_length_takeWhile, takeWhile_append_stop hd,
      dropWhile_append_stop hd]
    cases cs.takeWhile Text.isDigit with
    | nil => rfl
    | cons e es =>
      cases cs.dropWhile Text.isDigit with
      | nil => simp [hc]
      | cons f fs => rfl
  · intro cs ds n h
    obtain ⟨rest, rfl, rfl, -⟩ := eq_append_of_slot? h
    exact ⟨slotOpen :: (ds ++ [slotClose]), rest, by simp, by simp, List.cons_ne_nil _ _⟩

theorem slotOpen_notMem_patternHead {blanks : List Char} (hn : isName name = true)
    (hb : blanks.all Text.isBlank = true) : slotOpen ∉ patternHead kind name blanks := by
  have hkeyword : slotOpen ∉ kind.keyword := by cases kind <;> decide
  have hblank : slotOpen ∉ blanks := fun hmem =>
    absurd (List.all_eq_true.1 hb _ hmem) (by decide)
  simp only [patternHead, List.mem_cons, List.mem_append, List.not_mem_nil, or_false, not_or]
  exact ⟨by decide, slotOpen_notMem_of_isName hn, by decide, hblank, hkeyword, by decide⟩

/-- No slot reaches over the head of a pattern. -/
theorem restore_head {blanks : List Char} (hn : isName name = true)
    (hb : blanks.all Text.isBlank = true) (pre rest : List Char) :
    restore parked (pre ++ (patternHead kind name blanks ++ rest)) =
      restore parked pre ++ (patternHead kind name blanks ++ restore parked rest) := by
  let head := patternHead kind name blanks
  have hhead : slotOpen ∉ head.tail := fun hmem =>
    slotOpen_notMem_patternHead hn hb (List.mem_of_mem_tail hmem)
  calc restore parked (pre ++ '\x7b' :: (head.tail ++ rest))
      = restore parked pre ++ '\x7b' :: restore parked (head.tail ++ rest) :=
        restore_append_stop (by decide) (by decide) (by decide +kernel) pre _
    _ = restore parked pre ++ '\x7b' :: (head.tail ++ restore parked rest) := by
        rw [restore_append hhead]

/-! ### Texts whose names have no values -/

/-- No name behind an opening brace has a value with a text. -/
def Env.Mute (env : Env) (cs : List Char) : Prop :=
  ∀ front rest, cs = front ++ '\x7b' :: rest →
    (env.value? (rest.takeWhile Text.isWord)).bind Value.display = none

theorem serves_eq_false (h : (env.value? name).bind Value.display = none) (kind : Kind) :
    env.serves kind name = false := by
  unfold Env.serves
  split
  · cases hv : env.value? name with
    | none => rfl
    | some v =>
      rw [hv] at h
      cases v <;> first | rfl | exact absurd h (Option.some_ne_none _)
  · rw [h]
    rfl

/-- A name without a text serves no pattern and fills no placeholder. -/
theorem inert_of_names {cs : List Char}
    (h : ∀ front rest, cs = front ++ '\x7b' :: rest → rest.takeWhile Text.isWord ≠ [] →
      (env.value? (rest.takeWhile Text.isWord)).bind Value.display = none) : env.Inert cs where
  patterns kind front name head after htext hm := by
    obtain ⟨blanks, more, rest, hne, hword, -, -, hhead, -⟩ := eq_append_of_marker? hm
    have hname := h front (name ++ ',' :: (blanks ++ (kind.keyword ++ ',' :: more)) ++ after)
      (by rw [htext, hhead]; rfl)
    rw [List.append_assoc, List.cons_append, takeWhile_isWord_comma hword] at hname
    exact replacement?_eq_none (serves_eq_false (hname hne) kind) after
  placeholders name source hmem := by
    obtain ⟨front, rest, n, htext, hread, -⟩ := Text.read_of_mem_tokens hmem
    obtain ⟨after, rfl, -, hname⟩ := simple?_eq_some hread
    have hvalue := h front _ htext
    rw [takeWhile_isWord_name hname (by decide)] at hvalue
    exact congrArg (Option.map _) (hvalue (ne_nil_of_isName hname))

theorem Env.Mute.inert {cs : List Char} (h : env.Mute cs) : env.Inert cs :=
  inert_of_names fun front rest htext _ => h front rest htext

theorem renderChars_of_mute {cs : List Char} (h : env.Mute cs) : renderChars env cs = cs :=
  renderChars_of_inert h.inert

/-! ### The whole rendering -/

/-- A pattern whose value is of no use, in a text without other patterns: its head and its closing
brace stay, and what is between them is rendered like a message of its own. So the pattern stays as
it is written exactly when its options do, and they do if no name in them has a value. -/
theorem unresolved_pattern (env : Env) {kind : Kind} {pre name blanks options post : List Char}
    (hpre : '\x7b' ∉ pre) (hpost : '\x7b' ∉ post) (hn : isName name = true)
    (hb : blanks.all Text.isBlank = true) (ho : Balanced options)
    (hv : env.serves kind name = false) :
    let head := patternHead kind name blanks
    let written := head ++ options ++ ['\x7d']
    let rendered := head ++ renderChars env options ++ ['\x7d']
    let parked := (settle env passLimit { text := options }).parked
    renderChars env (pre ++ written ++ post) =
        restore parked pre ++ rendered ++ restore parked post ∧
      (rendered = written ↔ renderChars env options = options) ∧
      (env.Mute options → rendered = written) ∧
      (slotOpen ∉ pre → slotOpen ∉ post →
        renderChars env (pre ++ written ++ post) = pre ++ rendered ++ post) := by
  intro head written rendered parked
  have hwhole : renderChars env (pre ++ written ++ post) =
      restore parked pre ++ rendered ++ restore parked post := by
    have hkept : Kept env (pre ++ head) :=
      Kept.append (fun kind ps => .refl hpre) (kept_head hn hb hv)
    have hback : '\x7b' ∉ '\x7d' :: post := by simpa using hpost
    obtain ⟨settled, ps, hbal, hin, hout⟩ := settle_around hkept hback passLimit ho []
    have hparked : parked = ps := congrArg Work.parked hin
    have hoptions : renderChars env options = restore ps (fillVariables env settled) := by
      unfold renderChars
      rw [hin]
    have htext : pre ++ written ++ post = pre ++ head ++ options ++ '\x7d' :: post := by
      simp [written]
    have hfill : fillVariables env (pre ++ head ++ settled ++ '\x7d' :: post) =
        pre ++ (head ++ (fillVariables env settled ++ '\x7d' :: post)) := by
      rw [List.append_assoc, List.append_assoc, fillVariables_append hpre, fillVariables_head hn hb,
        fillVariables_balanced hbal, fillVariables_char (simple?_of_ne (by decide) post),
        fillVariables_eq_self hpost]
    unfold renderChars
    rw [htext, hout]
    dsimp only
    have hrestore : ∀ rest, restore ps (pre ++ (head ++ rest)) =
        restore ps pre ++ (head ++ restore ps rest) := restore_head hn hb pre
    rw [hfill, hrestore, restore_append_stop (by decide) (by decide) (by decide +kernel),
      ← hoptions, hparked]
    simp [rendered]
  have hsame : rendered = written ↔ renderChars env options = options := by
    simp only [rendered, written, List.append_left_inj, List.append_right_inj]
  refine ⟨hwhole, hsame, fun hm => hsame.2 (renderChars_of_mute hm), fun hs hs' => ?_⟩
  rw [hwhole, restore_eq_self hs, restore_eq_self hs']

/-- A fruit, and nothing to count. -/
def fruitEnv : Env where
  locale := "en"
  escape := true
  vars := [("item", .str "apple")]

theorem balanced_fruit : Balanced " one {item} other {items}".toList := by
  have hclose : closing 0 (" one {item} other {items}".toList ++ ['\x7d']) =
      some (" one {item} other {items}".toList, []) := by
    decide +kernel
  exact balanced_of_closing hclose

/-- A placeholder in a clause that nothing chose. -/
theorem unresolved_pattern_fruit :
    fruitEnv.serves .plural "count".toList = false ∧ Balanced " one {item} other {items}".toList ∧
      renderChars fruitEnv ("Take ".toList ++ (patternHead .plural "count".toList [' '] ++
          " one {item} other {items}".toList ++ ['\x7d']) ++ "!".toList) =
        "Take ".toList ++ (patternHead .plural "count".toList [' '] ++
          renderChars fruitEnv " one {item} other {items}".toList ++ ['\x7d']) ++ "!".toList ∧
      renderChars fruitEnv " one {item} other {items}".toList =
        " one apple other {items}".toList := by
  have hv : fruitEnv.serves .plural "count".toList = false := by decide +kernel
  have hpre : '\x7b' ∉ "Take ".toList := by decide
  have hpost : '\x7b' ∉ "!".toList := by decide
  have hblank : [' '].all Text.isBlank = true := by decide
  have hrender :=
    unresolved_pattern fruitEnv hpre hpost (by decide) hblank balanced_fruit hv
  exact ⟨hv, balanced_fruit, hrender.2.2.2 (by decide) (by decide), by decide +kernel⟩

/-- The text of the pattern does not come through. -/
theorem unresolved_pattern_rewritten :
    fruitEnv.serves .plural "count".toList = false ∧ Balanced " one {item} other {items}".toList ∧
      render fruitEnv "{count, plural, one {item} other {items}}" =
        "{count, plural, one apple other {items}}" ∧
      ¬ "{count, plural, one {item} other {items}}".toList <:+:
        (render fruitEnv "{count, plural, one {item} other {items}}").toList :=
  ⟨by decide +kernel, balanced_fruit, by decide +kernel, by decide +kernel⟩

end Phrasebook.Icu
