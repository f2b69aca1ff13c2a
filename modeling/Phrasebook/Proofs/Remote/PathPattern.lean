import Phrasebook.Proofs.Text.Replacing
import Phrasebook.Proofs.Text.Tokens
import Phrasebook.Remote

/-!
# Paths from a pattern

A pattern is filled in twice, first with the locale and then with the namespace, so the second round
also reads what the first one has written. `Config.filledPath` fills in both at once.
`pathByPattern_eq_filledPath_iff` says when they agree: a locale must not bring or complete a mark of
the namespace.
-/

namespace Phrasebook.Remote

/-- What a mark in a pattern stands for. -/
inductive Mark where
  | locale
  | space
  deriving DecidableEq, Repr

/-- The mark at the start of the text, and its length. -/
def mark? (cs : List Char) : Option (Mark × Nat) :=
  if localeMark.toList.isPrefixOf cs then some (.locale, localeMark.toList.length)
  else if spaceMark.toList.isPrefixOf cs then some (.space, spaceMark.toList.length)
  else none

/-- The text that a mark stands for. -/
def Mark.text (locale space : List Char) : Mark → List Char
  | .locale => locale
  | .space => space

/-- The characters of a pattern with every mark filled in, none of them in a text that was filled
in. -/
def fillMarks (locale space cs : List Char) : List Char :=
  Text.replaceTokens mark? (fun m => some (m.text locale space)) cs

/-- The path with locale and namespace filled in at once. -/
def Config.filledPath (c : Config) (locale space : String) : String :=
  String.ofList (fillMarks locale.toList space.toList c.loadPath.toList)

/-! ### Marks side by side -/

/-- The patterns that are replaced. -/
def marks : List (List Char) :=
  [localeMark.toList, spaceMark.toList]

variable {p a rest : List Char}

theorem localeMark_mem : localeMark.toList ∈ marks :=
  List.mem_cons_self

theorem spaceMark_mem : spaceMark.toList ∈ marks :=
  List.mem_cons_of_mem _ List.mem_cons_self

theorem ne_nil_of_mem_marks (hp : p ∈ marks) : p ≠ [] := by
  have hall : ∀ p ∈ marks, p ≠ [] := by decide
  exact hall p hp

/-- No mark goes over into a text that begins with two opening braces, -/
theorem not_straddles_opening (hp : p ∈ marks) :
    ¬ Text.Straddles p a ('\x7b' :: '\x7b' :: rest) := by
  have hends : ∀ p ∈ marks, ∀ n < p.length, 0 < n →
      ¬ (p.drop n).take 2 <+: ['\x7b', '\x7b'] := by
    decide
  intro hs
  obtain ⟨n, hpos, hlt, -, hprefix⟩ := hs.exists_cut
  refine hends p hp n hlt hpos (List.prefix_of_prefix_length_le
    ((List.take_prefix 2 _).trans hprefix) ⟨rest, rfl⟩ (List.length_take_le 2 _))

/-- and none comes out of a text that ends with two closing braces. -/
theorem not_straddles_closing (hp : p ∈ marks) :
    ¬ Text.Straddles p (a ++ ['\x7d', '\x7d']) rest := by
  have hstarts : ∀ p ∈ marks, ∀ n < p.length, 0 < n →
      ¬ (p.take n).reverse.take 2 <+: ['\x7d', '\x7d'] := by
    decide
  intro hs
  obtain ⟨n, hpos, hlt, hsuffix, -⟩ := hs.exists_cut
  have hreverse : (p.take n).reverse <+: '\x7d' :: '\x7d' :: a.reverse := by
    simpa using List.reverse_prefix.2 hsuffix
  exact hstarts p hp n hlt hpos (List.prefix_of_prefix_length_le
    ((List.take_prefix 2 _).trans hreverse) ⟨a.reverse, rfl⟩ (List.length_take_le 2 _))

theorem braces_of_mem_marks {m : List Char} (hm : m ∈ marks) :
    m = '\x7b' :: '\x7b' :: m.drop 2 ∧ m = m.take (m.length - 2) ++ ['\x7d', '\x7d'] := by
  have hall : ∀ m ∈ marks, m = '\x7b' :: '\x7b' :: m.drop 2 ∧
      m = m.take (m.length - 2) ++ ['\x7d', '\x7d'] := by
    decide
  exact hall m hm

theorem not_straddles_before {m : List Char} (hp : p ∈ marks) (hm : m ∈ marks) (a rest : List Char) :
    ¬ Text.Straddles p a (m ++ rest) := by
  rw [(braces_of_mem_marks hm).1]
  exact not_straddles_opening hp

theorem not_straddles_behind {m : List Char} (hp : p ∈ marks) (hm : m ∈ marks) (rest : List Char) :
    ¬ Text.Straddles p m rest := by
  rw [(braces_of_mem_marks hm).2]
  exact not_straddles_closing hp

theorem unbordered (hp : p ∈ marks) : Text.Unbordered p :=
  ⟨ne_nil_of_mem_marks hp, not_straddles_behind hp hp⟩

/-- A text without braces that is no part of the word in a mark is no part of a mark, either. -/
theorem not_straddles_locale {locale : List Char}
    (hbrace : ∀ c ∈ locale, c ≠ '\x7b' ∧ c ≠ '\x7d') (hword : ¬ locale <:+: ['n', 's'])
    (a rest : List Char) :
    ¬ Text.Straddles spaceMark.toList a (locale ++ rest) ∧
      ¬ Text.Straddles spaceMark.toList locale rest := by
  have hparts : ∀ i ≤ 6, ∀ j ≤ 6, '\x7b' ∈ (spaceMark.toList.drop i).take j ∨
      '\x7d' ∈ (spaceMark.toList.drop i).take j ∨
        (spaceMark.toList.drop i).take j <:+: ['n', 's'] := by
    decide
  have hopens : ∀ n < 6, 0 < n → '\x7b' ∈ spaceMark.toList.take n := by decide
  have hcloses : ∀ n < 6, '\x7d' ∈ spaceMark.toList.drop n := by decide
  constructor
  · intro hs
    obtain ⟨n, hpos, hlt, -, hprefix⟩ := hs.exists_cut
    rcases List.prefix_or_prefix_of_prefix hprefix (List.prefix_append locale rest) with hin | hin
    · exact (hbrace _ (hin.subset (hcloses n hlt))).2 rfl
    · obtain ⟨v, hv⟩ := hin
      have hlen : locale.length ≤ 6 := by
        calc locale.length ≤ (locale ++ v).length := (List.prefix_append locale v).length_le
          _ ≤ spaceMark.toList.length := hv ▸ (List.drop_sublist n _).length_le
      have hpart : (spaceMark.toList.drop n).take locale.length = locale := by
        rw [← hv, List.take_left]
      have hcases := hparts n (Nat.le_of_lt hlt) locale.length hlen
      rw [hpart] at hcases
      rcases hcases with hmem | hmem | hin
      · exact (hbrace _ hmem).1 rfl
      · exact (hbrace _ hmem).2 rfl
      · exact hword hin
  · intro hs
    obtain ⟨n, hpos, hlt, hsuffix, -⟩ := hs.exists_cut
    exact (hbrace _ (hsuffix.subset (hopens n hlt hpos))).1 rfl

/-! ### Filling in mark by mark -/

variable {locale space : List Char}

theorem fillMarks_locale (rest : List Char) :
    fillMarks locale space (localeMark.toList ++ rest) = locale ++ fillMarks locale space rest := by
  refine Text.replaceTokens_token (t := Mark.locale) (by decide) ?_
  rw [mark?, if_pos (List.isPrefixOf_iff_prefix.2 (List.prefix_append _ _))]

theorem fillMarks_space (rest : List Char) :
    fillMarks locale space (spaceMark.toList ++ rest) = space ++ fillMarks locale space rest := by
  refine Text.replaceTokens_token (t := Mark.space) (by decide) ?_
  rw [mark?, if_neg (by simp [localeMark, spaceMark]),
    if_pos (List.isPrefixOf_iff_prefix.2 (List.prefix_append _ _))]

theorem fillMarks_cons {c : Char} {cs : List Char} (hl : ¬ localeMark.toList <+: c :: cs)
    (hs : ¬ spaceMark.toList <+: c :: cs) :
    fillMarks locale space (c :: cs) = c :: fillMarks locale space cs := by
  refine Text.replaceTokens_char ?_
  rw [mark?, if_neg (mt List.isPrefixOf_iff_prefix.1 hl),
    if_neg (mt List.isPrefixOf_iff_prefix.1 hs)]

/-- Along a pattern: either a mark is next, or a character that begins none. -/
theorem mark_induction {P : List Char → Prop} (nil : P [])
    (locale : ∀ rest, P rest → P (localeMark.toList ++ rest))
    (space : ∀ rest, P rest → P (spaceMark.toList ++ rest))
    (cons : ∀ c cs, ¬ localeMark.toList <+: c :: cs → ¬ spaceMark.toList <+: c :: cs → P cs →
      P (c :: cs))
    (cs : List Char) : P cs := by
  induction hn : cs.length using Nat.strongRecOn generalizing cs with
  | ind n ih =>
    subst hn
    cases cs with
    | nil => exact nil
    | cons c cs =>
      have later : ∀ m rest, m ∈ marks → m ++ rest = c :: cs → P rest := by
        intro m rest hm htext
        have hpos := List.length_pos_iff.2 (ne_nil_of_mem_marks hm)
        refine ih rest.length ?_ rest rfl
        rw [← htext, List.length_append]
        omega
      by_cases hl : localeMark.toList <+: c :: cs
      · obtain ⟨rest, hrest⟩ := hl
        exact hrest ▸ locale rest (later _ rest localeMark_mem hrest)
      · by_cases hs : spaceMark.toList <+: c :: cs
        · obtain ⟨rest, hrest⟩ := hs
          exact hrest ▸ space rest (later _ rest spaceMark_mem hrest)
        · exact cons c cs hl hs (ih _ (Nat.lt_succ_self _) cs rfl)

/-- The pattern after the first round. -/
def fillLocale (locale cs : List Char) : List Char :=
  Text.replaceFrom localeMark.toList locale 0 cs

/-- The number of marks of the namespace in a text. -/
def spaceMarks (cs : List Char) : Nat :=
  Text.occurrences spaceMark.toList cs

@[simp] theorem spaceMarks_nil : spaceMarks [] = 0 := rfl

theorem fillLocale_locale (rest : List Char) :
    fillLocale locale (localeMark.toList ++ rest) = locale ++ fillLocale locale rest :=
  (unbordered localeMark_mem).replaceFrom_append rest

theorem fillLocale_space (rest : List Char) :
    fillLocale locale (spaceMark.toList ++ rest) = spaceMark.toList ++ fillLocale locale rest :=
  Text.replaceFrom_append (not_straddles_behind localeMark_mem spaceMark_mem rest)

theorem fillLocale_cons {c : Char} {cs : List Char} (hl : ¬ localeMark.toList <+: c :: cs) :
    fillLocale locale (c :: cs) = c :: fillLocale locale cs :=
  Text.replaceFrom_cons hl

theorem spaceMarks_locale (front rest : List Char) :
    spaceMarks (front ++ (localeMark.toList ++ rest)) = spaceMarks front + spaceMarks rest := by
  unfold spaceMarks
  rw [Text.occurrences_append (not_straddles_before spaceMark_mem localeMark_mem front rest),
    Text.occurrences_append (not_straddles_behind spaceMark_mem localeMark_mem rest)]
  exact congrArg _ (Nat.zero_add _)

theorem spaceMarks_space (front rest : List Char) :
    spaceMarks (front ++ (spaceMark.toList ++ rest)) = spaceMarks front + spaceMarks rest + 1 := by
  rw [← List.append_assoc]
  exact (unbordered spaceMark_mem).occurrences_around front rest

theorem spaceMarks_cons {c : Char} {cs : List Char} (hs : ¬ spaceMark.toList <+: c :: cs) :
    spaceMarks (c :: cs) = spaceMarks cs :=
  Text.occurrences_cons hs

/-- Between the marks of the namespace, both ways of filling in write the same texts. -/
theorem exists_runs (locale space cs : List Char) :
    ∃ run runs, fillLocale locale cs = Text.joinWith spaceMark.toList (run :: runs) ∧
      fillMarks locale space cs = Text.joinWith space (run :: runs) ∧
      spaceMarks cs = runs.length := by
  have joined : ∀ (sep front run : List Char) (runs : List (List Char)),
      Text.joinWith sep ((front ++ run) :: runs) = front ++ Text.joinWith sep (run :: runs) := by
    intro sep front run runs
    cases runs <;> simp [Text.joinWith]
  induction cs using mark_induction with
  | nil => exact ⟨[], [], rfl, rfl, rfl⟩
  | locale rest ih =>
    obtain ⟨run, runs, hfirst, hboth, hcount⟩ := ih
    refine ⟨locale ++ run, runs, ?_, ?_, ?_⟩
    · rw [fillLocale_locale, hfirst, joined]
    · rw [fillMarks_locale, hboth, joined]
    · simpa using (spaceMarks_locale [] rest).trans (congrArg _ hcount)
  | space rest ih =>
    obtain ⟨run, runs, hfirst, hboth, hcount⟩ := ih
    refine ⟨[], run :: runs, ?_, ?_, ?_⟩
    · rw [fillLocale_space, hfirst]
      rfl
    · rw [fillMarks_space, hboth]
      rfl
    · simpa [hcount] using spaceMarks_space [] rest
  | cons c cs hl hs ih =>
    obtain ⟨run, runs, hfirst, hboth, hcount⟩ := ih
    refine ⟨c :: run, runs, ?_, ?_, ?_⟩
    · rw [fillLocale_cons hl, hfirst]
      exact (joined _ [c] run runs).symm
    · rw [fillMarks_cons hl hs, hboth]
      exact (joined _ [c] run runs).symm
    · rw [spaceMarks_cons hs, hcount]

/-- Around a text without braces that is no part of the word in a mark, no mark comes about. -/
theorem spaceMarks_fillLocale (hbrace : ∀ c ∈ locale, c ≠ '\x7b' ∧ c ≠ '\x7d')
    (hword : ¬ locale <:+: ['n', 's']) (front cs : List Char) :
    spaceMarks (front ++ fillLocale locale cs) = spaceMarks (front ++ cs) := by
  induction cs using mark_induction generalizing front with
  | nil => rfl
  | locale rest ih =>
    have hnone : Text.occurrences spaceMark.toList locale = 0 := by
      refine Text.occurrences_eq_zero fun hin => (hbrace '\x7b' (hin.subset ?_)).1 rfl
      decide
    have hrest : spaceMarks (fillLocale locale rest) = spaceMarks rest := ih []
    obtain ⟨hbefore, hbehind⟩ := not_straddles_locale hbrace hword front (fillLocale locale rest)
    rw [fillLocale_locale, spaceMarks_locale, ← hrest]
    unfold spaceMarks
    rw [Text.occurrences_append hbefore, Text.occurrences_append hbehind, hnone, Nat.zero_add]
  | space rest ih =>
    have hrest : spaceMarks (fillLocale locale rest) = spaceMarks rest := ih []
    rw [fillLocale_space, spaceMarks_space, spaceMarks_space, hrest]
  | cons c cs hl _ ih =>
    rw [fillLocale_cons hl, List.append_cons, ih, ← List.append_cons]

/-- Filling in the locale and then the namespace comes to the same as filling in both at once, exactly
if the locale brings or completes no mark of the namespace, or the namespace is that mark. A locale
brings and completes none if it has no braces and is not a part of the word in the mark. -/
theorem pathByPattern_eq_filledPath_iff (c : Config) (locale space : String) :
    (c.pathByPattern locale space = c.filledPath locale space ↔
      space = spaceMark ∨
        spaceMarks (Text.replaceAll localeMark locale c.loadPath).toList =
          spaceMarks c.loadPath.toList) ∧
    ((∀ x ∈ locale.toList, x ≠ '\x7b' ∧ x ≠ '\x7d') → ¬ locale.toList <:+: ['n', 's'] →
      c.pathByPattern locale space = c.filledPath locale space) := by
  have hround : (Text.replaceAll localeMark locale c.loadPath).toList =
      fillLocale locale.toList c.loadPath.toList := String.toList_ofList
  have hiff : c.pathByPattern locale space = c.filledPath locale space ↔
      space = spaceMark ∨ spaceMarks (fillLocale locale.toList c.loadPath.toList) =
        spaceMarks c.loadPath.toList := by
    obtain ⟨run, runs, hfirst, hboth, hcount⟩ :=
      exists_runs locale.toList space.toList c.loadPath.toList
    have hjoined := (unbordered spaceMark_mem).replaceFrom_joinWith_eq_iff (r := space.toList) run runs
    rw [← hfirst, ← hboth, ← hcount, String.toList_inj] at hjoined
    unfold Config.pathByPattern Config.filledPath Text.replaceAll
    rw [String.ofList_inj, String.toList_ofList]
    exact hjoined
  rw [hround]
  refine ⟨hiff, fun hbrace hword => hiff.2 (.inr ?_)⟩
  exact spaceMarks_fillLocale hbrace hword [] c.loadPath.toList

/-- A pattern with braces around the mark of the locale. -/
def bracedConfig : Config where
  loadPath := "/\x7b\x7b\x7b\x7blng\x7d\x7d\x7d\x7d/\x7b\x7bns\x7d\x7d.json"

/-- Braces around the locale do no harm, -/
theorem filledPath_braced :
    (∀ x ∈ "es-MX".toList, x ≠ '\x7b' ∧ x ≠ '\x7d') ∧ ¬ "es-MX".toList <:+: ['n', 's'] ∧
      bracedConfig.pathByPattern "es-MX" "home" = bracedConfig.filledPath "es-MX" "home" ∧
      bracedConfig.filledPath "es-MX" "home" = "/\x7b\x7bes-MX\x7d\x7d/home.json" := by
  have hbrace : ∀ x ∈ "es-MX".toList, x ≠ '\x7b' ∧ x ≠ '\x7d' := by simp
  have hword : ¬ "es-MX".toList <:+: ['n', 's'] := by decide
  exact ⟨hbrace, hword, (pathByPattern_eq_filledPath_iff bracedConfig "es-MX" "home").2 hbrace hword,
    by decide +kernel⟩

/-- unless they complete a mark with it. A locale that is a mark gives way to the namespace. -/
theorem pathByPattern_marked :
    bracedConfig.pathByPattern "ns" "home" = "/home/home.json" ∧
      bracedConfig.filledPath "ns" "home" = "/\x7b\x7bns\x7d\x7d/home.json" ∧
      Config.pathByPattern {} spaceMark "home" = "/locales/home/home.json" ∧
      Config.filledPath {} spaceMark "home" = "/locales/\x7b\x7bns\x7d\x7d/home.json" :=
  ⟨by decide +kernel, by decide +kernel, by decide +kernel, by decide +kernel⟩

end Phrasebook.Remote
