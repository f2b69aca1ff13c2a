import Phrasebook.Proofs.Icu.Written

/-!
# A sweep over a message

A sweep for one kind of pattern turns the text of a message into the text of a message that has no
pattern of this kind and stands for the same, where a hash stands for the `outermost` number.
`Message.Formed.sweeps` shows this for any nesting.
-/

namespace Phrasebook.Icu

variable {env : Env} {covered nested guard : Bool} {kind : Kind} {name : List Char}
  {parked : List (List Char)} {kinds : List Kind} {fill : Option (List Char)}

/-! ### What a pattern stands for -/

theorem exists_count_of_serves (hk : kind.isNumeric = true) (h : env.serves kind name = true) :
    ∃ count, (env.value? name).bind Value.number? = some count := by
  rw [Env.serves, if_pos hk] at h
  exact Option.isSome_iff_exists.1 h

theorem exists_text_of_serves (h : env.serves .select name = true) :
    ∃ text, (env.value? name).bind Value.display = some text :=
  Option.isSome_iff_exists.1 h

theorem evalBy_numeric_of_count (hk : kind.isNumeric = true) {count : Float}
    (hv : (env.value? name).bind Value.number? = some count) (rule : Stack → List Char)
    (around : Stack) (arms : Arms) :
    (Part.pattern kind name arms).evalBy rule env around =
      (numberBody (kind.category env.locale count) count
        (arms.evalBy rule env ((kind, plainChars (Binary64.ofFloat count)) :: around))).getD
          (plainChars (Binary64.ofFloat count)) := by
  rw [evalBy_numeric hk, hv]

theorem evalBy_select_of_text {text : String}
    (hv : (env.value? name).bind Value.display = some text) (rule : Stack → List Char)
    (around : Stack) (arms : Arms) :
    (Part.pattern .select name arms).evalBy rule env around =
      ((bodyOf text.toList (arms.evalBy rule env around)).or
        (bodyOf Category.other.keyword.toList (arms.evalBy rule env around))).getD
          (showText env.escape text) := by
  rw [Part.evalBy, hv]

theorem Arms.forText_ne_none {arms : Arms}
    (h : Category.other.keyword.toList ∈ arms.map Prod.fst) (text : String) :
    arms.forText text ≠ none := by
  obtain ⟨a, ha, hother⟩ := List.mem_map.1 h
  intro hnone
  have hrest := List.find?_eq_none.1 (Option.or_eq_none_iff.1 hnone).2 a ha
  exact hrest (beq_iff_eq.2 hother)

/-! ### Numbers that took the place of hashes -/

/-- What took the place of the hashes is the number of a pattern of the kind. -/
def Kind.Fills (kind : Kind) (fill : Option (List Char)) : Prop :=
  ∀ number, fill = some number → kind.isNumeric = true ∧ ∃ x, number = plainChars x

namespace Kind.Fills

theorem none : kind.Fills Option.none :=
  fun _ h => absurd h (Option.some_ne_none _).symm

theorem isNumber (h : kind.Fills fill) : IsNumber (fill.getD ['#']) := by
  cases fill with
  | none => exact .inl rfl
  | some number => exact .inr (h number rfl).2

theorem number (hk : kind.isNumeric = true) (h : kind.Fills fill) (x : Binary64) :
    kind.Fills (fill.or (some (plainChars x))) := by
  cases fill with
  | none => exact fun _ hnumber => ⟨hk, x, (Option.some.inj hnumber).symm⟩
  | some number => exact h

/-- The hashes that are left in a clause are filled when it is picked. -/
theorem fillHash_getD (h : kind.Fills fill) (number : List Char) :
    fillHash number (fill.getD ['#']) = (fill.or (some number)).getD ['#'] := by
  cases fill with
  | none => exact fillHash_hash number
  | some n =>
    obtain ⟨-, x, rfl⟩ := h n rfl
    exact fillHash_of_notMem (notMem_plainChars (by decide) x) number

/-- A number in the place of hashes is the one that they stand for. -/
theorem fillHash_filled (h : kind.Fills fill) {around : Stack} (hr : kind.Rules around)
    (cs : List Char) :
    fillHash (outermost around) (fillHash (fill.getD ['#']) cs) =
      fillHash (outermost (Stack.under kind fill around)) cs := by
  rw [fillHash_fillHash, fillHash_outermost hr]
  intro number hnumber
  obtain ⟨hk, x, rfl⟩ := h number hnumber
  exact ⟨hk, notMem_plainChars (by decide) x⟩

end Kind.Fills

/-! ### Sweeps in sequence -/

/-- A sweep turns the text into that of a message without patterns of the kind, which stands for
`value around` below the patterns `around`; if `guard`, a brace stays at its start. -/
def Sweeps (env : Env) (kind : Kind) (covered : Bool) (kinds : List Kind) (nested guard : Bool)
    (cs : List Char) (value : Stack → List Char) (ps : List (List Char)) : Prop :=
  ∃ more m, Rewrites env kind cs ps (Message.print m) (ps ++ more) ∧
    m.Formed env covered (ps ++ more) (kinds.filter (· ≠ kind)) nested ∧
    (guard = true → m.guarded = true) ∧ (covered = true → more = []) ∧
    ∀ around, kind.Rules around → m.evalBy outermost env around = value around

namespace Sweeps

variable {a b cs : List Char} {f g : Stack → List Char} {ps : List (List Char)}

theorem append {guard' : Bool} (ha : Sweeps env kind covered kinds nested guard a f ps)
    (hb : ∀ more, Sweeps env kind covered kinds nested guard' b g (ps ++ more)) :
    Sweeps env kind covered kinds nested guard (a ++ b) (fun around => f around ++ g around) ps := by
  obtain ⟨more, m, hrewrites, hformed, hguard, hparked, heval⟩ := ha
  obtain ⟨more', m', hrewrites', hformed', -, hparked', heval'⟩ := hb more
  rw [List.append_assoc] at hrewrites' hformed'
  refine ⟨more ++ more', m ++ m', ?_, ?_, fun hg => guarded_append (hguard hg) m', fun hc => ?_,
    fun around hr => ?_⟩
  · rw [print_append]
    exact hrewrites.append hrewrites'
  · refine Message.Formed.append ?_ hformed'
    rw [← List.append_assoc]
    exact hformed.park more'
  · rw [hparked hc, hparked' hc, List.append_nil]
  · rw [evalBy_append, heval around hr, heval' around hr]

/-- A literal stays, with its hashes filled; the guard is that of what follows. -/
theorem literal (hb : NoBrace cs) (hu : nested = true → Unmarked guard cs)
    (hs : covered = false → slotOpen ∉ cs) (hf : kind.Fills fill)
    (h : Sweeps env kind covered kinds nested guard b g ps) :
    Sweeps env kind covered kinds nested false (fillHash (fill.getD ['#']) cs ++ b)
      (fun around => fillHash (outermost (Stack.under kind fill around)) cs ++ g around) ps := by
  obtain ⟨more, m, hrewrites, hformed, hguard, hparked, heval⟩ := h
  have hfilled := noBrace_fillHash hb hf.isNumber.noBrace
  refine ⟨more, .literal (fillHash (fill.getD ['#']) cs) :: m,
    (Rewrites.refl hfilled.notMem).append hrewrites, ?_, fun hg => Bool.noConfusion hg, hparked,
    fun around hr => ?_⟩
  · refine .literal hfilled (fun hn => ((hu hn).mono hguard).fillHash hf.isNumber) (fun hc => ?_)
      hformed
    intro hmem
    rcases mem_fillHash hmem with ⟨hmem, -⟩ | ⟨hmem, -⟩
    · exact hs hc hmem
    · exact hf.isNumber.notMem (by decide) (by decide) hmem
  · rw [Message.evalBy, Part.evalBy, heval around hr, hf.fillHash_filled hr]

theorem of_part {p : Part} (hr : Rewrites env kind a ps p.print ps)
    (hp : Message.Formed env covered ps (kinds.filter (· ≠ kind)) nested [p])
    (hg : guard = true → Message.guarded [p] = true)
    (hv : ∀ around, p.evalBy outermost env around = f around) :
    Sweeps env kind covered kinds nested guard a f ps := by
  refine ⟨[], [p], ?_, ?_, hg, fun _ => rfl, fun around _ => ?_⟩
  · rw [List.append_nil, show Message.print [p] = p.print from List.append_nil _]
    exact hr
  · rw [List.append_nil]
    exact hp
  · rw [← hv around]
    exact List.append_nil _

/-- A clause takes the place of its pattern. -/
theorem of_clause {text : List Char} {value : Stack → List Char}
    (h : Sweeps env kind covered kinds true guard b g ps)
    (hr : ∀ ds qs, Rewrites env kind b ps ds qs → Rewrites env kind text ps ds qs)
    (hv : ∀ around, kind.Rules around → g around = value around) :
    Sweeps env kind covered kinds nested false text value ps := by
  obtain ⟨more, m, hrewrites, hformed, -, hparked, heval⟩ := h
  exact ⟨more, m, hr _ _ hrewrites, hformed.lift nested, fun hg => Bool.noConfusion hg, hparked,
    fun around hrules => (heval around hrules).trans (hv around hrules)⟩

end Sweeps

/-- What a sweep makes of a message some of whose hashes were filled. -/
abbrev Message.Sweeps (env : Env) (kind : Kind) (covered : Bool) (kinds : List Kind)
    (nested : Bool) (fill : Option (List Char)) (m : Message) (ps : List (List Char)) : Prop :=
  Icu.Sweeps env kind covered kinds nested m.guarded (m.filled (fill.getD ['#']))
    (fun around => m.evalBy outermost env (Stack.under kind fill around)) ps

theorem Message.Sweeps.cons {p : Part} {m : Message} {more : List (List Char)}
    (hp : Icu.Sweeps env kind covered kinds nested (Message.guarded [p])
      (fillHash (fill.getD ['#']) p.print)
      (fun around => p.evalBy outermost env (Stack.under kind fill around)) (parked ++ more))
    (hm : ∀ more, Message.Sweeps env kind covered kinds nested fill m (parked ++ more)) :
    Message.Sweeps env kind covered kinds nested fill (p :: m) (parked ++ more) := by
  have hguard : Message.guarded (p :: m) = Message.guarded [p] := by cases p <;> rfl
  have hlater : ∀ rest,
      Message.Sweeps env kind covered kinds nested fill m ((parked ++ more) ++ rest) := by
    intro rest
    rw [List.append_assoc]
    exact hm _
  unfold Message.Sweeps
  rw [hguard, filled_cons]
  exact hp.append hlater

theorem sweeps_clauses {arms : Arms} {ps : List (List Char)} (hf : kind.Fills fill)
    (hs : ∀ s ∈ arms.map Prod.fst, isSelector s = true)
    (ha : ∀ a ∈ arms, Message.Formed env covered parked kinds true a.2)
    (h : ∀ a ∈ arms, ∀ more, Message.Sweeps env kind covered kinds true fill a.2 (ps ++ more)) :
    ∃ more arms', Rewrites env kind (clauseText (arms.clauses (Message.filled (fill.getD ['#'])))) ps
        (clauseText (Arms.clauses Message.print arms')) (ps ++ more) ∧
      arms'.map Prod.fst = arms.map Prod.fst ∧
      (∀ a ∈ arms', Message.Formed env covered (ps ++ more) (kinds.filter (· ≠ kind)) true a.2) ∧
      (covered = true → more = []) ∧
      ∀ around, kind.Rules around →
        arms'.evalBy outermost env around =
          arms.evalBy outermost env (Stack.under kind fill around) := by
  induction arms generalizing ps with
  | nil =>
    refine ⟨[], [], ?_, rfl, by simp, fun _ => rfl, fun _ _ => rfl⟩
    rw [List.append_nil]
    exact Rewrites.refl (by simp [Arms.clauses, clauseText])
  | cons a arms ih =>
    rw [List.map_cons, List.forall_mem_cons] at hs
    obtain ⟨hplain, ha⟩ := List.forall_mem_cons.1 ha
    obtain ⟨hfirst, hlater⟩ := List.forall_mem_cons.1 h
    obtain ⟨more, m, hrewrites, hformed, -, hparked, heval⟩ := hfirst []
    rw [List.append_nil] at hrewrites hformed
    have hrest : ∀ b ∈ arms, ∀ rest,
        Message.Sweeps env kind covered kinds true fill b.2 ((ps ++ more) ++ rest) := by
      intro b hb rest
      rw [List.append_assoc]
      exact hlater b hb _
    obtain ⟨more', arms', hrewrites', hselectors, hformed', hparked', heval'⟩ := ih hs.2 ha hrest
    rw [List.append_assoc] at hrewrites' hformed'
    refine ⟨more ++ more', (a.1, m) :: arms', ?_, by simp [hselectors], ?_, fun hc => ?_,
      fun around hr => ?_⟩
    · exact Rewrites.clause hs.1 (hplain.plain_filled rfl hf.isNumber) hrewrites hrewrites'
    · refine List.forall_mem_cons.2 ⟨?_, hformed'⟩
      rw [← List.append_assoc]
      exact hformed.park more'
    · rw [hparked hc, hparked' hc, List.append_nil]
    · obtain ⟨selector, body⟩ := a
      rw [Arms.evalBy, Arms.evalBy, heval around hr, heval' around hr]

/-! ### One part -/

theorem rewrites_braced (hn : isName name = true) {c : Char} (hw : Text.isWord c = false)
    (hc : c ≠ ',') {cs : List Char} (hcs : '\x7b' ∉ c :: cs) (ps : List (List Char)) :
    Rewrites env kind ('\x7b' :: name ++ c :: cs) ps ('\x7b' :: name ++ c :: cs) ps := by
  have hinner : '\x7b' ∉ name ++ c :: cs := by
    rw [List.mem_append, not_or]
    exact ⟨(noBrace_of_isName hn).notMem, hcs⟩
  refine Rewrites.cons (fun rest => marker?_of_stop fun after h => ?_) (Rewrites.refl hinner)
  change (name ++ c :: cs ++ rest).dropWhile Text.isWord = ',' :: after at h
  rw [List.append_assoc, List.dropWhile_append_of_pos (by simpa using isWord_of_isName hn),
    List.cons_append, List.dropWhile_cons_of_neg (by simp [hw])] at h
  exact hc (List.cons.inj h).1

theorem rewrites_placeholder (hn : isName name = true) (ps : List (List Char)) :
    Rewrites env kind (Part.placeholder name).print ps (Part.placeholder name).print ps :=
  rewrites_braced hn (by decide) (by decide) (by decide) ps

theorem rewrites_token (hn : isName name = true) {format : List Char}
    (hf : ∀ c ∈ format, isFormatChar c = true) (ps : List (List Char)) :
    Rewrites env kind (Part.token name format).print ps (Part.token name format).print ps := by
  have hbar : '\x7b' ∉ '|' :: (format ++ ['\x7d']) := by
    simp [(noBrace_of_isFormatChar hf).notMem]
  have htext : (Part.token name format).print =
      '\x7b' :: name ++ '|' :: (format ++ ['\x7d']) := by
    simp [Part.print]
  rw [htext]
  exact rewrites_braced hn (by decide) (by decide) hbar ps

section Pattern

variable {arms : Arms} {ps : List (List Char)}

theorem written_filled (hf : kind.Fills fill) (hs : ∀ s ∈ arms.map Prod.fst, isSelector s = true)
    (ha : ∀ a ∈ arms, Message.Formed env covered parked kinds true a.2) :
    Written (arms.clauses (Message.filled (fill.getD ['#']))) :=
  written_clauses hs fun a hmem => (ha a hmem).balanced_filled hf.isNumber.noBrace

theorem choose_filled_numeric (hk : kind.isNumeric = true) (hf : kind.Fills fill)
    (hw : Written (arms.clauses (Message.filled (fill.getD ['#'])))) {count : Float}
    (hcount : (env.value? name).bind Value.number? = some count) :
    choose env kind (env.value? name)
        (clauseText (arms.clauses (Message.filled (fill.getD ['#'])))).tail =
      some (.body (((arms.forNumber (kind.category env.locale count) count).map fun a =>
        a.2.filled ((fill.or (some (plainChars (Binary64.ofFloat count)))).getD ['#'])).getD
          (plainChars (Binary64.ofFloat count)))) := by
  rw [choose_numeric hk, hcount, clauses_clauseText hw, Option.map_some]
  dsimp only
  rw [numberBody_clauses, Option.map_map, ← hf.fillHash_getD]
  congr 4
  funext a
  exact fillHash_fillHash _ _ _

theorem choose_filled_select {hash : List Char}
    (hw : Written (arms.clauses (Message.filled hash))) {text : String}
    (htext : (env.value? name).bind Value.display = some text) :
    choose env .select (env.value? name) (clauseText (arms.clauses (Message.filled hash))).tail =
      some (((arms.forText text).map fun a => .body (a.2.filled hash)).getD
        (.text (showText env.escape text))) := by
  unfold choose
  simp only [htext, clauses_clauseText hw, Option.map_some, textBody_clauses]
  cases arms.forText text <;> rfl

theorem sweeps_numeric (hk : kind.isNumeric = true) (hn : isName name = true)
    (hv : env.serves kind name = true) (hf : kind.Fills fill)
    (hs : ∀ s ∈ arms.map Prod.fst, isSelector s = true)
    (ha : ∀ a ∈ arms, Message.Formed env covered parked kinds true a.2)
    (h : ∀ a ∈ arms, ∀ fill, kind.Fills fill →
      Message.Sweeps env kind covered kinds true fill a.2 ps) :
    Sweeps env kind covered kinds nested false
      (fillHash (fill.getD ['#']) (Part.pattern kind name arms).print)
      (fun around => (Part.pattern kind name arms).evalBy outermost env
        (Stack.under kind fill around)) ps := by
  obtain ⟨count, hcount⟩ := exists_count_of_serves hk hv
  have hwritten := written_filled hf hs ha
  have hchoose := choose_filled_numeric hk hf hwritten hcount
  rw [fillHash_pattern hn hs]
  simp only [evalBy_numeric_of_count hk hcount, Arms.evalBy_eq_clauses, numberBody_clauses]
  cases harm : arms.forNumber (kind.category env.locale count) count with
  | none =>
    rw [harm] at hchoose
    have hbrace : '\x7b' ∉ plainChars (Binary64.ofFloat count) := notMem_plainChars (by decide) _
    refine Sweeps.of_part (p := .literal (plainChars (Binary64.ofFloat count)))
      (Rewrites.of_body hn hwritten hchoose (Rewrites.refl hbrace)) ?_
      (fun hg => Bool.noConfusion hg) fun around => ?_
    · exact .literal (noBrace_plainChars _)
        (fun _ => unmarked_of_notMem (notMem_plainChars (by decide) _))
        (fun _ => notMem_plainChars (by decide) _) .nil
    · rw [Part.evalBy, fillHash_of_notMem (notMem_plainChars (by decide) _)]
      rfl
  | some a =>
    rw [harm] at hchoose
    refine Sweeps.of_clause (h a (Arms.mem_of_forNumber harm) _ (hf.number hk _))
      (fun ds qs hr => Rewrites.of_body hn hwritten hchoose hr) fun around hr => ?_
    -- The number is in place of the hashes of `a`, so it is below all patterns in `a`.
    exact (Message.evalBy_congr [] a.2 fun s _ => outermost_under hk hr _ s).symm

theorem sweeps_select (hn : isName name = true)
    (hv : env.serves .select name = true) (hf : Kind.Fills .select fill)
    (hs : ∀ s ∈ arms.map Prod.fst, isSelector s = true)
    (hc : covered = true → Category.other.keyword.toList ∈ arms.map Prod.fst)
    (ha : ∀ a ∈ arms, Message.Formed env covered parked kinds true a.2)
    (h : ∀ a ∈ arms, Message.Sweeps env .select covered kinds true fill a.2 ps) :
    Sweeps env .select covered kinds nested false
      (fillHash (fill.getD ['#']) (Part.pattern .select name arms).print)
      (fun around => (Part.pattern .select name arms).evalBy outermost env
        (Stack.under .select fill around)) ps := by
  obtain ⟨text, htext⟩ := exists_text_of_serves hv
  have hwritten := written_filled hf hs ha
  have hchoose := choose_filled_select hwritten htext
  rw [fillHash_pattern hn hs]
  simp only [evalBy_select_of_text htext, Arms.evalBy_eq_clauses, textBody_clauses]
  cases harm : arms.forText text with
  | none =>
    rw [harm] at hchoose
    refine ⟨[showText env.escape text], [.slot ps.length (showText env.escape text)], ?_, ?_,
      fun hg => Bool.noConfusion hg, fun hcovered => ?_, fun around _ => ?_⟩
    · rw [show Message.print [Part.slot ps.length _] = slot ps.length from List.append_nil _]
      exact Rewrites.of_text hn hwritten hchoose ps
    · exact .slot (by simp) .nil
    · exact absurd harm (Arms.forText_ne_none (hc hcovered) text)
    · exact List.append_nil _
  | some a =>
    rw [harm] at hchoose
    exact Sweeps.of_clause (h a (Arms.mem_of_forText harm))
      (fun ds qs hr => Rewrites.of_body hn hwritten hchoose hr) fun around _ => rfl

/-- With a pattern of another kind in between, the one of the swept kind still counts. -/
theorem Kind.Rules.push {other : Kind} (hk : other ≠ kind) (hmem : other ∈ kinds)
    (ho : kind = .ordinal → .plural ∉ kinds) (hnum : other.isNumeric = true) {around : Stack}
    (hr : kind.Rules around) (number : List Char) : kind.Rules ((other, number) :: around) := by
  cases kind with
  | plural => exact List.forall_mem_cons.2 ⟨hk, hr⟩
  | select => trivial
  | ordinal =>
    cases other with
    | plural => exact absurd hmem (ho rfl)
    | select => simp [Kind.isNumeric] at hnum
    | ordinal => exact absurd rfl hk

theorem sweeps_other {other : Kind} (hk : other ≠ kind) (hmem : other ∈ kinds)
    (ho : kind = .ordinal → .plural ∉ kinds) (hn : isName name = true)
    (hv : env.serves other name = true) (hf : kind.Fills fill)
    (hs : ∀ s ∈ arms.map Prod.fst, isSelector s = true)
    (hc : covered = true → other = .select →
      Category.other.keyword.toList ∈ arms.map Prod.fst)
    (ha : ∀ a ∈ arms, Message.Formed env covered parked kinds true a.2)
    (h : ∀ a ∈ arms, ∀ more, Message.Sweeps env kind covered kinds true fill a.2 (ps ++ more)) :
    Sweeps env kind covered kinds nested false
      (fillHash (fill.getD ['#']) (Part.pattern other name arms).print)
      (fun around => (Part.pattern other name arms).evalBy outermost env
        (Stack.under kind fill around)) ps := by
  obtain ⟨more, arms', hrewrites, hselectors, hformed, hparked, heval⟩ :=
    sweeps_clauses hf hs ha h
  have hkept : other ∈ kinds.filter (· ≠ kind) := by simp [hmem, hk]
  refine ⟨more, [.pattern other name arms'], ?_, ?_, fun hg => Bool.noConfusion hg, hparked,
    fun around hr => ?_⟩
  · rw [fillHash_pattern hn hs, show Message.print [.pattern other name arms'] =
      (Part.pattern other name arms').print from List.append_nil _, print_pattern]
    exact Rewrites.pattern hk hn hrewrites
  · rw [← hselectors] at hs hc
    exact .pattern hkept hn hv hs hc hformed .nil
  · rw [show Message.evalBy outermost env around [.pattern other name arms'] =
      (Part.pattern other name arms').evalBy outermost env around from List.append_nil _]
    show _ = (Part.pattern other name arms).evalBy outermost env (Stack.under kind fill around)
    by_cases hnum : other.isNumeric = true
    · obtain ⟨count, hcount⟩ := exists_count_of_serves hnum hv
      have hpush := hr.push hk hmem ho hnum (plainChars (Binary64.ofFloat count))
      rw [evalBy_numeric_of_count hnum hcount, evalBy_numeric_of_count hnum hcount, heval _ hpush]
      rfl
    · obtain rfl := Kind.eq_select hnum
      obtain ⟨text, htext⟩ := exists_text_of_serves hv
      rw [evalBy_select_of_text htext, evalBy_select_of_text htext, heval around hr]

end Pattern

/-- A sweep for one kind keeps what a message stands for, at any nesting. -/
theorem Message.Formed.sweeps (kind : Kind) {m : Message}
    (h : m.Formed env covered parked kinds nested) (ho : kind = .ordinal → .plural ∉ kinds)
    {fill : Option (List Char)} (hf : kind.Fills fill) (more : List (List Char)) :
    m.Sweeps env kind covered kinds nested fill (parked ++ more) := by
  induction h generalizing fill more with
  | nil =>
    refine ⟨[], [], ?_, .nil, fun hg => Bool.noConfusion hg, fun _ => rfl, fun _ _ => rfl⟩
    rw [List.append_nil]
    exact Rewrites.refl List.not_mem_nil
  | literal hb hu hs _ ih =>
    unfold Message.Sweeps
    rw [filled_cons]
    exact Icu.Sweeps.literal hb hu hs hf (ih hf more)
  | @placeholder nested name m hn _ ih =>
    refine .cons ?_ (ih hf)
    rw [fillHash_placeholder hn]
    exact Icu.Sweeps.of_part (p := .placeholder name) (rewrites_placeholder hn _)
      (.placeholder hn .nil) (fun _ => rfl) fun _ => rfl
  | @token nested name format m hn hformat hs _ ih =>
    refine .cons ?_ (ih hf)
    rw [fillHash_token hn hformat]
    exact Icu.Sweeps.of_part (p := .token name format) (rewrites_token hn hformat _)
      (.token hn hformat hs .nil) (fun _ => rfl) fun _ => rfl
  | @slot nested index text m hp _ ih =>
    refine .cons ?_ (ih hf)
    rw [fillHash_slot]
    exact Icu.Sweeps.of_part (p := .slot index text) (Rewrites.refl (noBrace_slot index).notMem)
      (.slot (getElem?_park hp more) .nil) (fun hg => Bool.noConfusion hg) fun _ => rfl
  | @pattern nested other name arms m hk hn hv hs hc ha _ iha ih =>
    refine .cons ?_ (ih hf)
    by_cases hne : other = kind
    · subst hne
      by_cases hnum : other.isNumeric = true
      · exact sweeps_numeric hnum hn hv hf hs ha fun a hmem fill hf => iha a hmem hf more
      · obtain rfl := Kind.eq_select hnum
        exact sweeps_select hn hv hf hs (fun h => hc h rfl) ha fun a hmem => iha a hmem hf more
    · refine sweeps_other hne hk ho hn hv hf hs hc ha fun a hmem rest => ?_
      rw [List.append_assoc]
      exact iha a hmem hf _

end Phrasebook.Icu
