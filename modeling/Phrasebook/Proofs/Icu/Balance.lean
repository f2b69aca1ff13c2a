import Phrasebook.Proofs.Icu.Clauses
import Phrasebook.Proofs.Icu.Sweep

/-!
# Sweeps over balanced texts

A body between braces is balanced, and so is what a sweep makes of a balanced text. Nothing in such a
text reaches over its end: `Balanced.rewrites` says that a sweep rewrites it in the same way whatever
follows.
-/

namespace Phrasebook.Icu

variable {env : Env} {kind : Kind} {a b : List Char}

/-! ### The shape of balanced texts -/

theorem closing_depth_add {depth : Nat} {cs : List Char} (h : closing depth cs = some (a, b))
    (n : Nat) (rest : List Char) :
    closing (n + depth) (a ++ rest) = (closing n rest).map fun (p, q) => (a ++ p, q) := by
  induction cs generalizing depth a with
  | nil => simp [closing] at h
  | cons c cs ih =>
    by_cases ho : c = '\x7b'
    · subst ho
      rw [closing_open] at h
      obtain ⟨⟨a', _⟩, hc, he⟩ := Option.map_eq_some_iff.1 h
      obtain ⟨rfl, rfl⟩ := Prod.mk.inj he
      rw [List.cons_append, closing_open, Nat.add_assoc, ih hc, Option.map_map]
      rfl
    · by_cases hx : c = '\x7d'
      · subst hx
        cases depth with
        | zero =>
          rw [closing_end] at h
          obtain ⟨rfl, -⟩ := Prod.mk.inj (Option.some.inj h)
          cases hn : closing n rest <;> simp [hn]
        | succ depth =>
          rw [closing_close] at h
          obtain ⟨⟨a', _⟩, hc, he⟩ := Option.map_eq_some_iff.1 h
          obtain ⟨rfl, rfl⟩ := Prod.mk.inj he
          rw [List.cons_append, ← Nat.add_assoc, closing_close, ih hc, Option.map_map]
          rfl
      · rw [closing_of_ne ho hx] at h
        obtain ⟨⟨a', _⟩, hc, he⟩ := Option.map_eq_some_iff.1 h
        obtain ⟨rfl, rfl⟩ := Prod.mk.inj he
        rw [List.cons_append, closing_of_ne ho hx, ih hc, Option.map_map]
        rfl

/-- What stands before the closing brace is balanced. -/
theorem balanced_of_closing {cs : List Char} (h : closing 0 cs = some (a, b)) : Balanced a :=
  closing_depth_add h

/-- The search past one brace more first finds the brace that closes the inner text. -/
theorem closing_succ {depth : Nat} {cs : List Char} (h : closing (depth + 1) cs = some (a, b)) :
    ∃ p q r, closing depth cs = some (p, q) ∧ closing 0 q = some (r, b) ∧ a = p ++ '\x7d' :: r := by
  induction cs generalizing depth a with
  | nil => simp [closing] at h
  | cons c cs ih =>
    by_cases ho : c = '\x7b'
    · subst ho
      rw [closing_open] at h
      obtain ⟨⟨a', _⟩, hc, he⟩ := Option.map_eq_some_iff.1 h
      obtain ⟨rfl, rfl⟩ := Prod.mk.inj he
      obtain ⟨p, q, r, hp, hq, rfl⟩ := ih hc
      exact ⟨'\x7b' :: p, q, r, by rw [closing_open, hp]; rfl, hq, rfl⟩
    · by_cases hx : c = '\x7d'
      · subst hx
        rw [closing_close] at h
        obtain ⟨⟨a', _⟩, hc, he⟩ := Option.map_eq_some_iff.1 h
        obtain ⟨rfl, rfl⟩ := Prod.mk.inj he
        cases depth with
        | zero => exact ⟨[], cs, a', closing_end cs, hc, rfl⟩
        | succ depth =>
          obtain ⟨p, q, r, hp, hq, rfl⟩ := ih hc
          exact ⟨'\x7d' :: p, q, r, by rw [closing_close, hp]; rfl, hq, rfl⟩
      · rw [closing_of_ne ho hx] at h
        obtain ⟨⟨a', _⟩, hc, he⟩ := Option.map_eq_some_iff.1 h
        obtain ⟨rfl, rfl⟩ := Prod.mk.inj he
        obtain ⟨p, q, r, hp, hq, rfl⟩ := ih hc
        exact ⟨c :: p, q, r, by rw [closing_of_ne ho hx, hp]; rfl, hq, rfl⟩

namespace Balanced

theorem of_append (ha : Balanced a) (h : Balanced (a ++ b)) : Balanced b := by
  intro depth rest
  have hinj : Function.Injective fun (p : List Char × List Char) => (a ++ p.1, p.2) := by
    rintro ⟨p, q⟩ ⟨p', q'⟩ he
    obtain ⟨hp, hq⟩ := Prod.mk.inj he
    exact Prod.ext (List.append_cancel_left hp) hq
  refine Option.map_injective hinj ?_
  calc (closing depth (b ++ rest)).map (fun p => (a ++ p.1, p.2))
      = closing depth (a ++ b ++ rest) := by rw [List.append_assoc, ha]
    _ = (closing depth rest).map fun p => (a ++ b ++ p.1, p.2) := h depth rest
    _ = _ := by rw [Option.map_map]; simp [Function.comp_def]

theorem cases (h : Balanced a) :
    a = [] ∨ (∃ c b, c ≠ '\x7b' ∧ c ≠ '\x7d' ∧ Balanced b ∧ a = c :: b) ∨
      ∃ b d, Balanced b ∧ Balanced d ∧ a = '\x7b' :: (b ++ '\x7d' :: d) := by
  cases a with
  | nil => exact .inl rfl
  | cons c b =>
    right
    have hclose := h.closing_eq []
    by_cases ho : c = '\x7b'
    · subst ho
      rw [List.cons_append, closing_open] at hclose
      obtain ⟨⟨b', _⟩, hc, he⟩ := Option.map_eq_some_iff.1 hclose
      obtain ⟨hb, rfl⟩ := Prod.mk.inj he
      obtain rfl := (List.cons.inj hb).2
      obtain ⟨p, q, r, hp, hq, rfl⟩ := closing_succ hc
      exact .inr ⟨p, r, balanced_of_closing hp, balanced_of_closing hq, rfl⟩
    · by_cases hx : c = '\x7d'
      · subst hx
        rw [List.cons_append, closing_end] at hclose
        simp at hclose
      · have hone : Balanced [c] := nil.cons ho hx
        exact .inl ⟨c, b, ho, hx, hone.of_append h, rfl⟩

/-- Behind an opening brace, the claim may be used for all balanced texts with fewer of them. -/
theorem induction {P : (a : List Char) → Balanced a → Prop} (nil : P [] nil)
    (cons : ∀ c b (ho : c ≠ '\x7b') (hc : c ≠ '\x7d') (hb : Balanced b), P b hb →
      P (c :: b) (hb.cons ho hc))
    (braces : ∀ b d (_ : Balanced b) (_ : Balanced d) (h : Balanced ('\x7b' :: (b ++ '\x7d' :: d))),
      (∀ e (he : Balanced e), e.count '\x7b' ≤ b.count '\x7b' + d.count '\x7b' → P e he) →
      P _ h)
    (a : List Char) (h : Balanced a) : P a h := by
  have within : ∀ n a (h : Balanced a), a.count '\x7b' < n → P a h := by
    intro n
    induction n with
    | zero => intro a _ hn; omega
    | succ n ihn =>
      intro a
      induction hlen : a.length using Nat.strongRecOn generalizing a with
      | ind len ihlen =>
        intro h hn
        obtain rfl | ⟨c, b, ho, hc, hb, rfl⟩ | ⟨b, d, hb, hd, rfl⟩ := h.cases
        · exact nil
        · rw [List.count_cons_of_ne ho] at hn
          exact cons c b ho hc hb (ihlen b.length (by simp [← hlen]) b rfl hb hn)
        · simp only [List.count_cons_self, List.count_append,
            List.count_cons_of_ne (show '\x7d' ≠ '\x7b' by decide)] at hn
          exact braces b d hb hd h fun e he hle => ihn e he (by omega)
  exact within _ a h (Nat.lt_succ_self _)

theorem fillHash {hash : List Char} (hh : NoBrace hash) (h : Balanced a) :
    Balanced (fillHash hash a) := by
  induction a, h using Balanced.induction with
  | nil => exact Balanced.nil
  | cons c b ho hc _ ih =>
    rw [show c :: b = [c] ++ b from rfl, fillHash_append]
    have hone : NoBrace (Icu.fillHash hash [c]) := by
      intro d hd
      rcases mem_fillHash hd with ⟨hd, -⟩ | ⟨hd, -⟩
      · rw [List.mem_singleton.1 hd]
        exact ⟨ho, hc⟩
      · exact hh d hd
    exact (of_noBrace hone).append ih
  | braces b d hb hd _ ih =>
    have hfirst := ih b hb (by omega)
    have hrest := ih d hd (by omega)
    rw [show '\x7b' :: (b ++ '\x7d' :: d) = ['\x7b'] ++ (b ++ (['\x7d'] ++ d)) by simp,
      fillHash_append, fillHash_append, fillHash_append, fillHash_of_notMem (by decide),
      fillHash_of_notMem (show '#' ∉ ['\x7d'] by decide)]
    simpa using hfirst.braces.append hrest

end Balanced

/-! ### Texts without braces -/

theorem noBrace_of_isWord {cs : List Char} (h : cs.all Text.isWord = true) : NoBrace cs := by
  intro c hc
  have hword := List.all_eq_true.1 h c hc
  constructor <;> rintro rfl <;> exact absurd hword (by decide)

theorem noBrace_of_isName {name : List Char} (h : isName name = true) : NoBrace name := by
  simp only [isName, Bool.and_eq_true] at h
  exact noBrace_of_isWord h.2

theorem noBrace_of_isBlank {cs : List Char} (h : cs.all Text.isBlank = true) : NoBrace cs := by
  intro c hc
  have hblank := List.all_eq_true.1 h c hc
  constructor <;> rintro rfl <;> exact absurd hblank (by decide)

theorem noBrace_slot (index : Nat) : NoBrace (slot index) := by
  intro c hc
  simp only [slot, List.cons_append, List.mem_cons, List.mem_append, List.not_mem_nil,
    or_false] at hc
  rcases hc with rfl | hc | rfl
  · decide
  · have hdigit := Decimal.isDigit_of_mem_natDigits hc
    constructor <;> rintro rfl <;> exact absurd hdigit (by decide)
  · decide

theorem noBrace_keyword (kind : Kind) : NoBrace kind.keyword := by
  cases kind <;> simp [NoBrace, Kind.keyword]

theorem noBrace_plainChars (x : Binary64) : NoBrace (plainChars x) := by
  intro c hc
  constructor <;> rintro rfl
  · exact notMem_plainChars (by decide) x hc
  · exact notMem_plainChars (by decide) x hc

theorem IsNumber.noBrace {hash : List Char} (h : IsNumber hash) : NoBrace hash := by
  rcases h with rfl | ⟨x, rfl⟩
  · simp [NoBrace]
  · exact noBrace_plainChars x

theorem noBrace_head (kind : Kind) {name blanks more : List Char} (hn : name.all Text.isWord = true)
    (hb : blanks.all Text.isBlank = true) (hm : more.all Text.isBlank = true) :
    NoBrace (name ++ ',' :: (blanks ++ (kind.keyword ++ ',' :: more))) := by
  refine (noBrace_of_isWord hn).append (.cons (by decide) (by decide) ?_)
  refine (noBrace_of_isBlank hb).append ((noBrace_keyword kind).append ?_)
  exact .cons (by decide) (by decide) (noBrace_of_isBlank hm)

/-! ### Heads in front of a closing brace -/

theorem takeWhile_append_stop {p : Char → Bool} {c : Char} (hc : p c = false) (cs rest : List Char) :
    (cs ++ c :: rest).takeWhile p = cs.takeWhile p := by
  induction cs with
  | nil => exact List.takeWhile_cons_of_neg (by simp [hc])
  | cons d cs ih =>
    cases hd : p d <;> simp [hd, ih]

theorem dropWhile_append_stop {p : Char → Bool} {c : Char} (hc : p c = false) (cs rest : List Char) :
    (cs ++ c :: rest).dropWhile p = cs.dropWhile p ++ c :: rest := by
  induction cs with
  | nil => exact List.dropWhile_cons_of_neg (by simp [hc])
  | cons d cs ih =>
    cases hd : p d <;> simp [hd, ih]

theorem isPrefixOf_append_stop {c : Char} {front : List Char} (hc : c ∉ front)
    (cs rest : List Char) : front.isPrefixOf (cs ++ c :: rest) = front.isPrefixOf cs := by
  induction front generalizing cs with
  | nil => rfl
  | cons d front ih =>
    simp only [List.mem_cons, not_or] at hc
    cases cs with
    | nil => simp [List.isPrefixOf, Ne.symm hc.1]
    | cons e cs => simp [List.isPrefixOf, ih hc.2]

/-- A closing brace ends the search for a head. -/
theorem marker?_append_close (cs rest : List Char) :
    marker? kind ('\x7b' :: (cs ++ '\x7d' :: rest)) = marker? kind ('\x7b' :: cs) := by
  have hkey : '\x7d' ∉ kind.keyword ++ [','] := by cases kind <;> decide
  rw [marker?, marker?]
  dsimp only
  rw [drop_length_takeWhile, drop_length_takeWhile, takeWhile_append_stop (by decide),
    dropWhile_append_stop (by decide)]
  cases hname : cs.takeWhile Text.isWord with
  | nil => rfl
  | cons d name =>
    cases hafter : cs.dropWhile Text.isWord with
    | nil => rfl
    | cons e after =>
      by_cases he : e = ','
      · subst he
        simp only [List.cons_append, drop_length_takeWhile]
        rw [takeWhile_append_stop (by decide), dropWhile_append_stop (by decide), isPrefixOf_append_stop hkey]
        by_cases hp : (kind.keyword ++ [',']).isPrefixOf (after.dropWhile Text.isBlank) = true
        · have hle : kind.keyword.length + 1 ≤ (after.dropWhile Text.isBlank).length := by
            simpa using (List.isPrefixOf_iff_prefix.1 hp).length_le
          rw [if_pos hp, if_pos hp, List.drop_append_of_le_length hle,
            takeWhile_append_stop (by decide)]
        · rw [if_neg hp, if_neg hp]
      · simp [he]

/-! ### What a sweep makes of them -/

theorem balanced_body_of_choose {v : Option Value} {options body : List Char}
    (h : choose env kind v options = some (.body body)) : Balanced body := by
  rcases body_of_choose h with ⟨x, rfl⟩ | ⟨c, hc, hash, hhash, rfl⟩
  · exact .of_noBrace (noBrace_plainChars x)
  · obtain ⟨_, _, _, -, hclose⟩ := split_of_mem_clauses hc
    exact (balanced_of_closing hclose).fillHash hhash.noBrace

/-- Between braces, the head of a pattern leaves balanced options. -/
theorem eq_append_of_marker?_balanced {name head : List Char} (ha : Balanced a)
    (hm : marker? kind ('\x7b' :: a) = some (name, head)) :
    ∃ word options, head = '\x7b' :: word ∧ a = word ++ options ∧ NoBrace word ∧
      Balanced options := by
  obtain ⟨blanks, more, options, -, hn, hblanks, hmore, rfl, htext⟩ := eq_append_of_marker? hm
  have hword := noBrace_head kind hn hblanks hmore
  obtain rfl := (List.cons.inj htext).2
  exact ⟨_, options, rfl, rfl, hword, (Balanced.of_noBrace hword).of_append ha⟩

namespace Rewrites

variable {word options name : List Char} {ps qs : List (List Char)}

theorem close (ps : List (List Char)) : Rewrites env kind ['\x7d'] ps ['\x7d'] ps :=
  refl (by decide)

/-- Braces around a text that does not begin like a pattern. -/
theorem braces (hm : marker? kind ('\x7b' :: a) = none) (hr : Rewrites env kind a ps b qs) :
    Rewrites env kind ('\x7b' :: (a ++ ['\x7d'])) ps ('\x7b' :: (b ++ ['\x7d'])) qs := by
  refine cons (fun rest => ?_) (hr.append (close qs))
  rw [List.append_assoc, List.singleton_append, marker?_append_close, hm]

section Pattern

variable (hm : marker? kind ('\x7b' :: (word ++ options)) = some (name, '\x7b' :: word))
  (ho : Balanced options)

include hm ho

theorem read_pattern (env : Env) (rest : List Char) :
    marker? kind ('\x7b' :: (word ++ options ++ ['\x7d']) ++ rest) = some (name, '\x7b' :: word) ∧
      ('\x7b' :: (word ++ options ++ ['\x7d']) ++ rest).drop ('\x7b' :: word).length =
        options ++ '\x7d' :: rest ∧
      replacement? env kind name (options ++ '\x7d' :: rest) =
        (choose env kind (env.value? name) options).map (·, rest) := by
  have htext : '\x7b' :: (word ++ options ++ ['\x7d']) ++ rest =
      '\x7b' :: word ++ (options ++ '\x7d' :: rest) := by
    simp
  refine ⟨?_, ?_, ?_⟩
  · have hclose := (marker?_append_close (word ++ options) rest).trans hm
    simpa using hclose
  · rw [htext]
    exact List.drop_left' rfl
  · exact replacement?_of_closing (ho.closing_eq rest)

theorem of_choose_body (hc : choose env kind (env.value? name) options = some (.body a))
    (hr : Rewrites env kind a ps b qs) :
    Rewrites env kind ('\x7b' :: (word ++ options ++ ['\x7d'])) ps b qs := by
  intro rest
  obtain ⟨hmarker, hdrop, hreplace⟩ := read_pattern hm ho env rest
  rw [resolve_body hmarker (by rw [hdrop, hreplace, hc]; rfl), hr]

theorem of_choose_text (hc : choose env kind (env.value? name) options = some (.text a))
    (ps : List (List Char)) :
    Rewrites env kind ('\x7b' :: (word ++ options ++ ['\x7d'])) ps (slot ps.length)
      (ps ++ [a]) := by
  intro rest
  obtain ⟨hmarker, hdrop, hreplace⟩ := read_pattern hm ho env rest
  rw [resolve_text hmarker (by rw [hdrop, hreplace, hc]; rfl)]

/-- The sweep goes on in the options of a pattern whose value is of no use. -/
theorem of_choose_none (hc : choose env kind (env.value? name) options = none)
    (hr : Rewrites env kind options ps b qs) :
    Rewrites env kind ('\x7b' :: (word ++ options ++ ['\x7d'])) ps
      ('\x7b' :: (word ++ b ++ ['\x7d'])) qs := by
  intro rest
  obtain ⟨hmarker, hdrop, hreplace⟩ := read_pattern hm ho env rest
  have hinner := (hr.append (close qs)) rest
  rw [List.append_assoc, List.singleton_append] at hinner
  rw [resolve_skip hmarker (by rw [hdrop, hreplace, hc]; rfl), hdrop, hinner, behind_behind]
  simp

end Pattern

end Rewrites

/-- A sweep rewrites a balanced text by itself, and leaves it balanced. -/
theorem Balanced.rewrites (env : Env) (kind : Kind) (h : Balanced a) (ps : List (List Char)) :
    ∃ b qs, Rewrites env kind a ps b qs ∧ Balanced b := by
  induction a, h using Balanced.induction generalizing ps with
  | nil => exact ⟨[], ps, .refl List.not_mem_nil, .nil⟩
  | cons c a ho hc _ ih =>
    obtain ⟨b, qs, hr, hb⟩ := ih ps
    exact ⟨c :: b, qs, hr.cons fun rest => marker?_of_ne ho _, hb.cons ho hc⟩
  | braces a d ha hd _ ih =>
    have hfirst : ∃ b qs, Rewrites env kind ('\x7b' :: (a ++ ['\x7d'])) ps b qs ∧ Balanced b := by
      cases hm : marker? kind ('\x7b' :: a) with
      | none =>
        obtain ⟨b, qs, hr, hb⟩ := ih a ha (by omega) ps
        exact ⟨_, qs, .braces hm hr, hb.braces⟩
      | some found =>
        obtain ⟨name, head⟩ := found
        obtain ⟨word, options, rfl, rfl, hword, ho⟩ := eq_append_of_marker?_balanced ha hm
        have hfewer : options.count '\x7b' ≤ (word ++ options).count '\x7b' :=
          (List.sublist_append_right _ _).count_le _
        cases hc : choose env kind (env.value? name) options with
        | none =>
          obtain ⟨b, qs, hr, hb⟩ := ih options ho (by omega) ps
          exact ⟨_, qs, .of_choose_none hm ho hc hr, ((Balanced.of_noBrace hword).append hb).braces⟩
        | some r =>
          cases r with
          | body body =>
            have hle := count_choose hc
            obtain ⟨b, qs, hr, hb⟩ := ih body (balanced_body_of_choose hc) (by omega) ps
            exact ⟨b, qs, .of_choose_body hm ho hc hr, hb⟩
          | text text =>
            exact ⟨_, _, .of_choose_text hm ho hc ps, .of_noBrace (noBrace_slot _)⟩
    obtain ⟨b, qs, hr, hb⟩ := hfirst
    obtain ⟨e, rs, hr', he⟩ := ih d hd (by omega) qs
    refine ⟨b ++ e, rs, ?_, hb.append he⟩
    rw [show '\x7b' :: (a ++ '\x7d' :: d) = '\x7b' :: (a ++ ['\x7d']) ++ d by simp]
    exact hr.append hr'

end Phrasebook.Icu
