import Phrasebook.Proofs.Icu.Balance
import Phrasebook.Proofs.Icu.Sound

/-!
# Patterns as they are written

The text of a message is balanced between two sweeps, and a brace that opens a clause is never taken
for the head of a pattern. `Rewrites.of_body` and `Rewrites.of_text` sweep over a pattern of the
kind in turn, `Rewrites.pattern` over one of another kind.
-/

namespace Phrasebook.Icu

theorem noBrace_of_isFormatChar {format : List Char} (h : ∀ c ∈ format, isFormatChar c = true) :
    NoBrace format := by
  intro c hc
  have hchar := h c hc
  simp only [isFormatChar, Bool.and_eq_true, bne_iff_ne, ne_eq] at hchar
  exact hchar.1

theorem noBrace_fillHash {cs hash : List Char} (hc : NoBrace cs) (hh : NoBrace hash) :
    NoBrace (fillHash hash cs) := by
  intro c hmem
  rcases mem_fillHash hmem with ⟨hmem, -⟩ | ⟨hmem, -⟩
  · exact hc c hmem
  · exact hh c hmem

/-! ### Balanced texts -/

variable {env : Env} {kind other : Kind} {name : List Char} {covered nested : Bool}
  {parked : List (List Char)} {kinds : List Kind}

theorem written_clauses {f : Message → List Char} {arms : Arms}
    (hs : ∀ s ∈ arms.map Prod.fst, isSelector s = true) (hb : ∀ a ∈ arms, Balanced (f a.2)) :
    Written (arms.clauses f) := by
  intro c hc
  obtain ⟨a, ha, rfl⟩ := List.mem_map.1 hc
  exact ⟨hs _ (List.mem_map_of_mem ha), hb a ha⟩

theorem balanced_patternText (hn : isName name = true) {cs : List Clause} (h : Written cs) :
    Balanced (patternText kind name cs) := by
  have hhead : Balanced (name ++ ',' :: ' ' :: (kind.keyword ++ [','])) := by
    refine Balanced.of_noBrace ((noBrace_of_isName hn).append ?_)
    refine .cons (by decide) (by decide) (.cons (by decide) (by decide) ?_)
    exact (noBrace_keyword kind).append (.cons (by decide) (by decide) (by simp [NoBrace]))
  have hall := (hhead.append (balanced_clauseText h)).braces
  simpa [patternText] using hall

theorem Message.Formed.balanced_filled {m : Message}
    (h : m.Formed env covered parked kinds nested) {hash : List Char} (hh : NoBrace hash) :
    Balanced (m.filled hash) := by
  induction h with
  | nil => exact Balanced.nil
  | literal hb _ _ _ ih =>
    rw [filled_cons]
    exact (Balanced.of_noBrace (noBrace_fillHash hb hh)).append ih
  | placeholder hn _ ih =>
    rw [filled_cons, fillHash_placeholder hn]
    exact (Balanced.of_noBrace (noBrace_of_isName hn)).braces.append ih
  | @token _ name format _ hn hf _ _ ih =>
    rw [filled_cons, fillHash_token hn hf]
    have hin : NoBrace (name ++ '|' :: format) :=
      (noBrace_of_isName hn).append (.cons (by decide) (by decide) (noBrace_of_isFormatChar hf))
    exact (Balanced.of_noBrace hin).braces.append ih
  | slot _ _ ih =>
    rw [filled_cons, fillHash_slot]
    exact (Balanced.of_noBrace (noBrace_slot _)).append ih
  | pattern _ hn _ hs _ _ _ iha ih =>
    rw [filled_cons, fillHash_pattern hn hs]
    exact (balanced_patternText hn (written_clauses hs iha)).append ih

/-! ### How clauses start -/

theorem filled_of_guarded {m : Message} (h : m.guarded = true) (hash : List Char) :
    ∃ tail, m.filled hash = '\x7b' :: tail := by
  match m with
  | .placeholder _ :: _ => exact ⟨_, fillHash_cons (by decide) _⟩
  | .token _ _ :: _ => exact ⟨_, fillHash_cons (by decide) _⟩

/-- The text in a clause does not start like a pattern. -/
theorem Message.Formed.plain_filled {m : Message} (h : m.Formed env covered parked kinds nested)
    (hnested : nested = true) {hash : List Char} (hh : IsNumber hash) : Plain (m.filled hash) := by
  have brace : ∀ cs, Plain ('\x7b' :: cs) := plain_cons (by decide) (by decide)
  induction h with
  | nil => exact plain_nil
  | literal _ hu _ _ ih =>
    rw [filled_cons]
    exact ((hu hnested).fillHash hh).plain_append (ih hnested) fun hg => filled_of_guarded hg hash
  | placeholder hn =>
    rw [filled_cons, fillHash_placeholder hn]
    exact brace _
  | token hn hf =>
    rw [filled_cons, fillHash_token hn hf]
    exact brace _
  | slot =>
    rw [filled_cons, fillHash_slot]
    exact plain_cons (by decide +kernel) (by decide) _
  | pattern _ hn _ hs =>
    rw [filled_cons, fillHash_pattern hn hs]
    exact brace _

/-! ### Sweeps over a pattern -/

theorem isWord_of_isName (h : isName name = true) : name.all Text.isWord = true := by
  simp only [isName, Bool.and_eq_true] at h
  exact h.2

theorem ne_nil_of_isName (h : isName name = true) : name ≠ [] := by
  rintro rfl
  simp [isName] at h

theorem marker?_patternText (kind : Kind) (hn : isName name = true) {cs : List Clause}
    (h : Written cs) :
    ∃ word, patternText kind name cs = '\x7b' :: (word ++ (clauseText cs).tail ++ ['\x7d']) ∧
      marker? kind ('\x7b' :: (word ++ (clauseText cs).tail)) = some (name, '\x7b' :: word) := by
  let options := clauseText cs ++ ['\x7d']
  let after := ' ' :: (kind.keyword ++ ',' :: options)
  have htext : patternText kind name cs = '\x7b' :: (name ++ ',' :: after) := by
    simp [patternText, after, options]
  have hdrop : after.dropWhile Text.isBlank = kind.keyword ++ [','] ++ options := by
    rw [List.dropWhile_cons_of_pos (by decide)]
    cases kind <;> rfl
  have htake : after.takeWhile Text.isBlank = [' '] := by
    rw [List.takeWhile_cons_of_pos (by decide)]
    cases kind <;> rfl
  have hkey : (kind.keyword ++ [',']).isPrefixOf (kind.keyword ++ [','] ++ options) = true :=
    List.isPrefixOf_iff_prefix.2 (List.prefix_append _ _)
  have hmore : (kind.keyword ++ [','] ++ options).drop (kind.keyword.length + 1) = options :=
    List.drop_left' (by simp)
  have hoptions : options.dropWhile Text.isBlank = (clauseText cs).tail ++ ['\x7d'] :=
    dropWhile_clauseText (fun c hc => (h c hc).1) (by decide) []
  have hsplit : '\x7b' :: (name ++ ',' :: after) = '\x7b' :: (name ++ ',' :: ' ' ::
      (kind.keyword ++ ',' :: options.takeWhile Text.isBlank) ++ (clauseText cs).tail ++
        ['\x7d']) := by
    rw [List.append_assoc, ← hoptions]
    simp [after, List.takeWhile_append_dropWhile]
  refine ⟨_, htext.trans hsplit, ?_⟩
  rw [← marker?_append_close _ [], ← hsplit, marker?_comma (ne_nil_of_isName hn)
    (isWord_of_isName hn), hdrop, if_pos hkey, hmore, htake]
  simp

theorem marker?_patternText_of_ne (hk : kind ≠ other) (hn : isName name = true) (cs : List Clause)
    (rest : List Char) : marker? other (patternText kind name cs ++ rest) = none := by
  have htext : patternText kind name cs ++ rest =
      '\x7b' :: (name ++ ',' :: (' ' :: (kind.keyword ++ ',' ::
        (clauseText cs ++ '\x7d' :: rest)))) := by
    simp [patternText]
  rw [htext, marker?_comma (ne_nil_of_isName hn) (isWord_of_isName hn),
    List.dropWhile_cons_of_pos (by decide), if_neg]
  cases kind <;> cases other <;> first | exact absurd rfl hk | exact fun h => Bool.noConfusion h

namespace Rewrites

variable {cs ds : List Clause} {ps qs : List (List Char)} {a b : List Char}

theorem of_body (hn : isName name = true) (h : Written cs)
    (hc : choose env kind (env.value? name) (clauseText cs).tail = some (.body a))
    (hr : Rewrites env kind a ps b qs) :
    Rewrites env kind (patternText kind name cs) ps b qs := by
  obtain ⟨word, htext, hm⟩ := marker?_patternText kind hn h
  rw [htext]
  exact of_choose_body hm (balanced_clauseText_tail h) hc hr

theorem of_text (hn : isName name = true) (h : Written cs)
    (hc : choose env kind (env.value? name) (clauseText cs).tail = some (.text a))
    (ps : List (List Char)) :
    Rewrites env kind (patternText kind name cs) ps (slot ps.length) (ps ++ [a]) := by
  obtain ⟨word, htext, hm⟩ := marker?_patternText kind hn h
  rw [htext]
  exact of_choose_text hm (balanced_clauseText_tail h) hc ps

/-- A pattern of another kind stays, with its clauses rewritten. -/
theorem pattern (hk : kind ≠ other) (hn : isName name = true)
    (h : Rewrites env other (clauseText cs) ps (clauseText ds) qs) :
    Rewrites env other (patternText kind name cs) ps (patternText kind name ds) qs := by
  have hhead : NoBrace (name ++ ',' :: ' ' :: (kind.keyword ++ [','])) := by
    refine (noBrace_of_isName hn).append ?_
    refine .cons (by decide) (by decide) (.cons (by decide) (by decide) ?_)
    exact (noBrace_keyword kind).append (.cons (by decide) (by decide) (by simp [NoBrace]))
  have htext : ∀ es : List Clause, patternText kind name es =
      '\x7b' ::
        ((name ++ ',' :: ' ' :: (kind.keyword ++ [','])) ++ (clauseText es ++ ['\x7d'])) := by
    intro es
    simp [patternText]
  have hclose : Rewrites env other ['\x7d'] qs ['\x7d'] qs := refl (by decide)
  have hinner := (refl hhead.notMem).append (h.append hclose)
  rw [htext cs, htext ds]
  refine cons (fun rest => ?_) hinner
  have hmarker := marker?_patternText_of_ne hk hn cs rest
  rwa [htext cs] at hmarker

theorem clause {selector : List Char} (hs : isSelector selector = true) (ha : Plain a)
    (hbody : Rewrites env kind a ps b qs) {rs : List (List Char)}
    (hrest : Rewrites env kind (clauseText cs) qs (clauseText ds) rs) :
    Rewrites env kind (clauseText (⟨selector, a⟩ :: cs)) ps (clauseText (⟨selector, b⟩ :: ds))
      rs := by
  have htext : ∀ (x : List Char) (es : List Clause), clauseText (⟨selector, x⟩ :: es) =
      (' ' :: selector ++ [' ']) ++ ('\x7b' :: (x ++ ('\x7d' :: clauseText es))) := by
    intro x es
    simp [clauseText_cons]
  have hselector : NoBrace (' ' :: selector ++ [' ']) :=
    ((noBrace_of_isSelector hs).cons (by decide) (by decide)).append (by simp [NoBrace])
  have hclose : Rewrites env kind ('\x7d' :: clauseText cs) qs ('\x7d' :: clauseText ds) rs :=
    cons (fun rest => marker?_of_ne (by decide) _) hrest
  have hbraces := cons (x := '\x7b') (fun rest => by
    rw [List.append_assoc, List.cons_append, marker?_append_close, marker?_of_plain ha])
    (hbody.append hclose)
  rw [htext a cs, htext b ds]
  exact (refl hselector.notMem).append hbraces

end Rewrites

end Phrasebook.Icu
