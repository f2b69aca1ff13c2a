import Phrasebook.Proofs.Icu.Filling
import Phrasebook.Proofs.Icu.Message
import Phrasebook.Proofs.Icu.Sweep

/-!
# How clauses start

A clause that starts with a word, a comma and the word of a kind reads like the head of a pattern.
`isPlainStart` checks a text for this, and `Unmarked.fillHash` says that no number in the place of a
hash makes such a start.
-/

namespace Phrasebook.Icu

/-- Whether the second text differs from the first one before either ends, with any number in the
place of its hashes. -/
def clashes : List Char → List Char → Bool
  | d :: ds, c :: cs => if c = d then clashes ds cs else c != '#' || !isPlainNumberChar d
  | _, _ => false

/-- Whether a clause that starts with this text does not start like a pattern. Where the text ends
behind its first comma, a brace must follow, which is so if `guarded`. -/
def isPlainStart (guarded : Bool) (cs : List Char) : Bool :=
  match cs.dropWhile fun c => Text.isWord c || c == '#' with
  | ',' :: rest =>
    let rest := rest.dropWhile Text.isBlank
    (rest.isEmpty && guarded) ||
      [Kind.plural, .select, .ordinal].all fun kind => clashes (kind.keyword ++ [',']) rest
  | _ => true

/-- A comma behind the first word is followed by something else than the word of a kind. -/
def Unmarked (guarded : Bool) (cs : List Char) : Prop :=
  ∀ front rest, cs = front ++ ',' :: rest → (∀ c ∈ front, Text.isWord c = true ∨ c = '#') →
    (rest.dropWhile Text.isBlank = [] ∧ guarded = true) ∨
      ∀ kind : Kind, clashes (kind.keyword ++ [',']) (rest.dropWhile Text.isBlank) = true

/-- The text behind a brace does not start like a pattern. -/
def Plain (cs : List Char) : Prop :=
  ∀ after, cs.dropWhile Text.isWord = ',' :: after →
    ∀ kind : Kind, ¬ (kind.keyword ++ [',']) <+: after.dropWhile Text.isBlank

variable {guarded : Bool} {kind : Kind} {cs hash : List Char}

theorem unmarked_of_isPlainStart (h : isPlainStart guarded cs = true) : Unmarked guarded cs := by
  rintro front rest rfl hfront
  have hword : ∀ c ∈ front, (Text.isWord c || c == '#') = true := by simpa using hfront
  rw [isPlainStart, List.dropWhile_append_of_pos hword, List.dropWhile_cons_of_neg (by decide)] at h
  rcases Bool.or_eq_true_iff.1 h with hend | hclash
  · exact .inl (by simpa using hend)
  · refine .inr fun kind => List.all_eq_true.1 hclash kind ?_
    cases kind <;> simp

theorem unmarked_of_notMem (h : ',' ∉ cs) : Unmarked guarded cs := by
  rintro front rest rfl
  simp at h

theorem Unmarked.mono {guarded' : Bool} (hg : guarded = true → guarded' = true)
    (h : Unmarked guarded cs) : Unmarked guarded' cs := by
  intro front rest htext hfront
  exact (h front rest htext hfront).imp_left fun h => ⟨h.1, hg h.2⟩

/-! ### Numbers in the place of hashes -/

theorem fillHash_cons {c : Char} (h : c ≠ '#') (cs : List Char) :
    fillHash hash (c :: cs) = c :: fillHash hash cs := by
  rw [show c :: cs = [c] ++ cs from rfl, fillHash_append, fillHash_of_notMem (by simpa using h.symm)]
  rfl

theorem fillHash_cons_hash (cs : List Char) :
    fillHash hash ('#' :: cs) = hash ++ fillHash hash cs := by
  rw [show '#' :: cs = ['#'] ++ cs from rfl, fillHash_append, fillHash_hash]

/-- A comma in a text with its hashes filled was there before. -/
theorem split_of_fillHash (hh : ',' ∉ hash) {front rest : List Char}
    (h : fillHash hash cs = front ++ ',' :: rest) :
    ∃ a b, cs = a ++ ',' :: b ∧ fillHash hash a = front ∧ fillHash hash b = rest := by
  induction cs generalizing front with
  | nil => simp [fillHash] at h
  | cons c cs ih =>
    by_cases hc : c = '#'
    · subst hc
      rw [fillHash_cons_hash] at h
      rcases List.append_eq_append_iff.1 h with ⟨more, rfl, hmore⟩ | ⟨more, hfront, hmore⟩
      · obtain ⟨a, b, rfl, rfl, rfl⟩ := ih hmore
        exact ⟨'#' :: a, b, rfl, fillHash_cons_hash a, rfl⟩
      · cases more with
        | nil =>
          obtain ⟨a, b, rfl, ha, rfl⟩ := @ih [] hmore.symm
          refine ⟨'#' :: a, b, rfl, ?_, rfl⟩
          rw [fillHash_cons_hash, ha, List.append_nil]
          exact hfront.trans (List.append_nil _)
        | cons d more =>
          obtain ⟨rfl, -⟩ := List.cons.inj hmore
          exact absurd (by simp [hfront]) hh
    · rw [fillHash_cons hc] at h
      cases front with
      | nil =>
        obtain ⟨rfl, hrest⟩ := List.cons.inj h
        exact ⟨[], cs, rfl, rfl, hrest⟩
      | cons d front =>
        obtain ⟨rfl, hrest⟩ := List.cons.inj h
        obtain ⟨a, b, rfl, rfl, rfl⟩ := ih hrest
        exact ⟨c :: a, b, rfl, fillHash_cons hc a, rfl⟩

theorem clashes_fillHash (hh : IsNumber hash) {ds : List Char} (hd : '#' ∉ ds)
    (h : clashes ds cs = true) : clashes ds (fillHash hash cs) = true := by
  induction ds generalizing cs with
  | nil => simp [clashes] at h
  | cons d ds ih =>
    cases cs with
    | nil => simp [clashes] at h
    | cons c cs =>
      simp only [List.mem_cons, not_or] at hd
      rw [clashes] at h
      by_cases hc : c = d
      · rw [if_pos hc] at h
        rw [fillHash_cons (hc ▸ Ne.symm hd.1), clashes, if_pos hc]
        exact ih hd.2 h
      · rw [if_neg hc] at h
        by_cases hhash : c = '#'
        · subst hhash
          rw [fillHash_cons_hash]
          rcases hh with rfl | ⟨x, rfl⟩
          · rw [List.singleton_append, clashes, if_neg hc]
            exact h
          · obtain ⟨e, es, he⟩ := List.exists_cons_of_ne_nil (plainChars_ne_nil x)
            have hplain : isPlainNumberChar e = true :=
              isPlainNumberChar_of_mem_plainChars (x := x) (he ▸ List.mem_cons_self)
            have hnumber : isPlainNumberChar d = false := by simpa using h
            have hne : e ≠ d := fun hed => by simp [hed, hnumber] at hplain
            rw [he, List.cons_append, clashes, if_neg hne, hnumber]
            simp
        · rw [fillHash_cons hhash, clashes, if_neg hc]
          exact h

theorem isBlank_of_isPlainNumberChar {c : Char} (h : isPlainNumberChar c = true) :
    Text.isBlank c = false := by
  rcases Bool.or_eq_true_iff.1 h with hdigit | hother
  · have hrange : 48 ≤ c.toNat ∧ c.toNat ≤ 57 := by
      simp only [Char.isDigit, Bool.and_eq_true, decide_eq_true_eq, ge_iff_le,
        UInt32.le_iff_toNat_le] at hdigit
      exact hdigit
    cases hb : Text.isBlank c with
    | false => rfl
    | true =>
      simp only [Text.isBlank, Bool.or_eq_true, Bool.and_eq_true, decide_eq_true_eq,
        beq_iff_eq] at hb
      omega
  · have hall : (['.', '-', 'i', 'n', 'f', 'N', 'a'].all fun c => !Text.isBlank c) = true := by
      decide
    simpa using List.all_eq_true.1 hall c (by simpa using hother)

theorem dropWhile_fillHash (hh : IsNumber hash) :
    (fillHash hash cs).dropWhile Text.isBlank = fillHash hash (cs.dropWhile Text.isBlank) := by
  induction cs with
  | nil => rfl
  | cons c cs ih =>
    by_cases hc : Text.isBlank c = true
    · have hne : c ≠ '#' := by
        rintro rfl
        exact absurd hc (by decide)
      rw [fillHash_cons hne, List.dropWhile_cons_of_pos hc, List.dropWhile_cons_of_pos hc, ih]
    · rw [List.dropWhile_cons_of_neg hc]
      by_cases hhash : c = '#'
      · subst hhash
        rw [fillHash_cons_hash]
        obtain ⟨e, es, rfl⟩ := List.exists_cons_of_ne_nil hh.ne_nil
        refine List.dropWhile_cons_of_neg ?_
        rcases hh with h | ⟨x, hx⟩
        · obtain ⟨rfl, -⟩ := List.cons.inj h
          exact hc
        · have hplain : isPlainNumberChar e = true :=
            isPlainNumberChar_of_mem_plainChars (x := x) (hx ▸ List.mem_cons_self)
          rw [isBlank_of_isPlainNumberChar hplain]
          exact Bool.false_ne_true
      · rw [fillHash_cons hhash, List.dropWhile_cons_of_neg hc]

/-- A number in the place of hashes does not make a start like that of a pattern. -/
theorem Unmarked.fillHash (h : Unmarked guarded cs) (hh : IsNumber hash) :
    Unmarked guarded (fillHash hash cs) := by
  intro front rest htext hfront
  obtain ⟨a, b, rfl, rfl, rfl⟩ := split_of_fillHash (hh.notMem (by decide) (by decide)) htext
  have hword : ∀ c ∈ a, Text.isWord c = true ∨ c = '#' := by
    intro c hc
    by_cases he : c = '#'
    · exact .inr he
    · exact hfront c (List.mem_flatMap.2 ⟨c, hc, by simp [he]⟩)
  rw [dropWhile_fillHash hh]
  refine (h a b rfl hword).imp (fun hend => ?_) fun hclash kind => ?_
  · rw [hend.1]
    exact ⟨rfl, hend.2⟩
  · exact clashes_fillHash hh (by cases kind <;> decide) (hclash kind)

/-! ### Texts behind a brace -/

theorem marker?_of_plain (h : Plain cs) : marker? kind ('\x7b' :: cs) = none := by
  cases hm : marker? kind ('\x7b' :: cs) with
  | none => rfl
  | some found =>
    obtain ⟨name, head⟩ := found
    obtain ⟨blanks, more, rest, -, hn, hb, -, rfl, htext⟩ := eq_append_of_marker? hm
    have hcs : cs = name ++ ',' :: (blanks ++ (kind.keyword ++ ',' :: (more ++ rest))) := by
      simpa using (List.cons.inj htext).2
    have hword : kind.keyword ++ ',' :: (more ++ rest) =
        (kind.keyword ++ ',' :: (more ++ rest)).dropWhile Text.isBlank := by
      cases kind <;> rfl
    refine absurd ?_ (h _ (hcs ▸ dropWhile_isWord_comma hn _) kind)
    rw [List.dropWhile_append_of_pos (by simpa using hb), ← hword]
    exact ⟨more ++ rest, by simp⟩

theorem plain_nil : Plain [] :=
  fun _ h => absurd h.symm (List.cons_ne_nil _ _)

theorem plain_cons {c : Char} (hw : Text.isWord c = false) (hc : c ≠ ',') (cs : List Char) :
    Plain (c :: cs) := by
  intro after h
  rw [List.dropWhile_cons_of_neg (by simp [hw])] at h
  exact absurd (List.cons.inj h).1 hc

theorem not_prefix_of_clashes {ds : List Char} (h : clashes ds cs = true) (rest : List Char) :
    ¬ ds <+: cs ++ rest := by
  induction ds generalizing cs with
  | nil => simp [clashes] at h
  | cons d ds ih =>
    cases cs with
    | nil => simp [clashes] at h
    | cons c cs =>
      rw [clashes] at h
      rw [List.cons_append, List.cons_prefix_cons]
      rintro ⟨rfl, hrest⟩
      rw [if_pos rfl] at h
      exact ih h hrest

/-- A text that is unmarked, in front of one that is plain and starts with a brace if the first one
is guarded. -/
theorem Unmarked.plain_append {rest : List Char} (h : Unmarked guarded cs) (hr : Plain rest)
    (hg : guarded = true → ∃ tail, rest = '\x7b' :: tail) : Plain (cs ++ rest) := by
  intro after hafter kind
  rw [List.dropWhile_append] at hafter
  have hsplit : cs.takeWhile Text.isWord ++ cs.dropWhile Text.isWord = cs :=
    List.takeWhile_append_dropWhile
  cases hdrop : cs.dropWhile Text.isWord with
  | nil =>
    rw [hdrop] at hafter
    exact hr after hafter kind
  | cons c tail =>
    rw [hdrop] at hafter
    rw [if_neg (by simp), List.cons_append] at hafter
    obtain ⟨rfl, rfl⟩ := List.cons.inj hafter
    have hword : ∀ c ∈ cs.takeWhile Text.isWord, Text.isWord c = true ∨ c = '#' :=
      fun c hc => .inl (List.all_eq_true.1 List.all_takeWhile c hc)
    rw [List.dropWhile_append]
    rcases h _ tail (by rw [← hdrop, hsplit]) hword with ⟨hend, hguard⟩ | hclash
    · obtain ⟨more, rfl⟩ := hg hguard
      rw [hend, List.isEmpty_nil, if_pos rfl, List.dropWhile_cons_of_neg (by decide)]
      cases kind <;> simp [Kind.keyword]
    · have hprefix := not_prefix_of_clashes (hclash kind) rest
      split
      · rename_i hempty
        have hfalse := hclash kind
        rw [List.isEmpty_iff.1 hempty] at hfalse
        cases kind <;> exact Bool.noConfusion hfalse
      · exact hprefix

end Phrasebook.Icu
