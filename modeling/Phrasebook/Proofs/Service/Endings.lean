import Phrasebook.Plugin.Capitalize
import Phrasebook.Proofs.Key.Canonical
import Phrasebook.Proofs.Plugin.Containment
import Phrasebook.Proofs.Service.Repetition
import Phrasebook.Proofs.Template.Numbers

/-!
# Letter case and numbers in one result

A key with the ending of a change of letter case finds the text of the key without it, and the
change is applied to the result. Where numbers are written as well, the order of the two plugins
counts: `suffixed_phrase` says that the numbers have to be written first. After a change of letter
case their tokens may no longer be what the text meant.
-/

namespace Phrasebook

variable {ε : Type} {hook : Hook}

/-- The plugin answers the hook at once: it neither notes nor keeps nor asks for anything. -/
def Registration.AtOnce (hook : Hook) (r : Registration) : Prop :=
  ∀ memory c, ∃ o, r.plugin.respond memory (hook.call c) = .finish o

namespace Host

theorem call_atOnce (answer : Handler ε) {r : Registration} (hr : r.AtOnce hook) (c : Context)
    (h : Host ε) :
    h.call answer r.ticket r.plugin (hook.call c) =
      (h.reply r (hook.call c), h.log (.called r.ticket r.name (hook.call c))) := by
  obtain ⟨o, ho⟩ := hr (h.memory r.ticket r.plugin.memory) c
  show (r.plugin.respond (h.memory r.ticket r.plugin.memory) (hook.call c)).run answer _ _ =
    ((r.plugin.respond (h.memory r.ticket r.plugin.memory) (hook.call c)).outcome, _)
  rw [ho]
  rfl

/-- The context after the reply of one plugin. -/
def passed (h : Host ε) (hook : Hook) (c : Context) (r : Registration) : Context :=
  hook.absorb c (h.reply r (hook.call c))

/-- The replies are all that there is to such a dispatch: apart from the calls in the journal, the
host stays as it is. -/
theorem dispatchTo_atOnce (answer : Handler ε) {rs : List Registration}
    (hrs : ∀ r ∈ rs, r.AtOnce hook) (c : Context) (h : Host ε) :
    ∃ journal, dispatchTo answer hook rs c h =
      (rs.foldl (h.passed hook) c, { h with journal }) := by
  induction rs generalizing c h with
  | nil => exact ⟨h.journal, rfl⟩
  | cons r rs ih =>
    rw [dispatchTo, call_atOnce answer (hrs r List.mem_cons_self)]
    exact ih (fun r' hr' => hrs r' (List.mem_cons_of_mem _ hr')) _ _

end Host

namespace Service

open Text

variable {s : Service} {numbers letters : Registration} {c : Context} {key : String}
  {args : Arguments}

/-- The plugin that writes numbers and the one that changes the letter case, both enabled. -/
structure Writers (numbers letters : Registration) : Prop where
  writesNumbers : numbers.plugin = NumberFormat.plugin
  writesLetters : letters.plugin = Capitalize.plugin
  numbersEnabled : numbers.config.enabled = true
  lettersEnabled : letters.config.enabled = true

/-- What becomes of a result when its numbers are written for this context. -/
def numbered (s : Service) (numbers : Registration) (c : Context) (text : String) : String :=
  NumberFormat.written (s.memory numbers.ticket NumberFormat.initialLocale) c.locale c.vars text

/-- What becomes of a result when its letter case is changed as the context asks. -/
def lettered (c : Context) (text : String) : String :=
  ((Capitalize.transform? c.data).map (·.apply text)).getD text

/-- What is looked up: the name without its ending, and the change that the ending asks for. -/
def unsuffixed (c : Context) : Context :=
  ((Capitalize.patch? c).map c.apply).getD c

namespace Writers

theorem reply_numbers_before (w : Writers numbers letters) (s : Service) (c : Context) :
    s.reply numbers (.before c) = .nothing := by
  unfold Host.reply
  rw [w.writesNumbers]
  rfl

theorem reply_numbers_after (w : Writers numbers letters) (s : Service) (c : Context) :
    s.reply numbers (.after c) =
      NumberFormat.writeNumbers (s.memory numbers.ticket NumberFormat.initialLocale) c := by
  unfold Host.reply
  rw [w.writesNumbers]
  rfl

theorem reply_letters (w : Writers numbers letters) (s : Service) (call : Call) :
    s.reply letters call = Capitalize.respond call := by
  unfold Host.reply
  rw [w.writesLetters]
  rfl

/-- After the look-up each of the two changes the result, and nothing else. -/
theorem passed_numbers (w : Writers numbers letters) (s : Service) (c : Context) :
    s.passed .after c numbers = { c with result := c.result.map (numbered s numbers c) } := by
  show Hook.after.absorb c (s.reply numbers (.after c)) = _
  rw [w.reply_numbers_after]
  exact NumberFormat.absorb_writeNumbers _ c

theorem passed_letters (w : Writers numbers letters) (s : Service) (c : Context) :
    s.passed .after c letters = { c with result := c.result.map (lettered c) } := by
  show Hook.after.absorb c (s.reply letters (.after c)) = _
  rw [w.reply_letters]
  obtain ⟨locale, space, name, vars, result, data⟩ := c
  unfold lettered Capitalize.respond Capitalize.result?
  dsimp only
  cases result with
  | none => rfl
  | some text =>
    cases Capitalize.transform? data with
    | none => rfl
    | some t => rfl

/-- Before the look-up only the ending of the name counts. -/
theorem passed_before (w : Writers numbers letters) (s : Service) (c : Context) :
    s.passed .before c numbers = c ∧ s.passed .before c letters = unsuffixed c := by
  refine ⟨?_, ?_⟩
  · show Hook.before.absorb c (s.reply numbers (.before c)) = c
    rw [w.reply_numbers_before]
    rfl
  · show Hook.before.absorb c (s.reply letters (.before c)) = _
    rw [w.reply_letters]
    unfold Capitalize.respond unsuffixed
    dsimp only
    cases Capitalize.patch? c <;> rfl

theorem atOnce (w : Writers numbers letters) {rs : List Registration}
    (hrs : rs = [numbers, letters] ∨ rs = [letters, numbers]) {hook : Hook}
    (hhook : hook = .before ∨ hook = .after) : ∀ r ∈ rs, r.AtOnce hook := by
  have hnumbers : numbers.AtOnce hook := by
    intro memory c
    rw [w.writesNumbers]
    obtain rfl | rfl := hhook <;> exact ⟨_, rfl⟩
  have hletters : letters.AtOnce hook := by
    intro memory c
    rw [w.writesLetters]
    exact ⟨_, rfl⟩
  intro r hr
  obtain rfl | rfl := hrs
  · obtain rfl | rfl := List.mem_pair.1 hr <;> assumption
  · obtain rfl | rfl := List.mem_pair.1 hr <;> assumption

theorem enabled (w : Writers numbers letters)
    (hs : s.registry = [numbers, letters] ∨ s.registry = [letters, numbers]) :
    s.enabled = s.registry := by
  refine List.filter_eq_self.2 fun r hr => ?_
  obtain hs | hs := hs
  · rw [hs] at hr
    obtain rfl | rfl := List.mem_pair.1 hr
    · exact w.numbersEnabled
    · exact w.lettersEnabled
  · rw [hs] at hr
    obtain rfl | rfl := List.mem_pair.1 hr
    · exact w.lettersEnabled
    · exact w.numbersEnabled

theorem dispatch (w : Writers numbers letters)
    (hs : s.registry = [numbers, letters] ∨ s.registry = [letters, numbers]) {hook : Hook}
    (hhook : hook = .before ∨ hook = .after) (answer : Handler Engine) (c : Context) :
    ∃ journal, s.dispatch answer hook c =
      (s.registry.foldl (s.passed hook) c, { s with journal }) := by
  unfold Host.dispatch
  rw [w.enabled hs]
  exact Host.dispatchTo_atOnce answer (w.atOnce hs hhook) c s

/-- In either order, the call looks for the name without its ending. -/
theorem dispatch_before (w : Writers numbers letters)
    (hs : s.registry = [numbers, letters] ∨ s.registry = [letters, numbers])
    (answer : Handler Engine) (c : Context) :
    ∃ journal, s.dispatch answer .before c = (unsuffixed c, { s with journal }) := by
  obtain ⟨journal, hdispatch⟩ := w.dispatch hs (.inl rfl) answer c
  refine ⟨journal, hdispatch.trans (Prod.ext ?_ rfl)⟩
  obtain hs | hs := hs
  · rw [hs, List.foldl_cons, List.foldl_cons, (w.passed_before s c).1, (w.passed_before s c).2]
    rfl
  · rw [hs, List.foldl_cons, List.foldl_cons, (w.passed_before s c).2, (w.passed_before s _).1]
    rfl

/-- A call that finds a text renders it and leaves the rest to the two plugins. -/
theorem phrase_of_found (w : Writers numbers letters)
    (hs : s.registry = [numbers, letters] ∨ s.registry = [letters, numbers])
    (answer : Handler Engine) {template : String}
    (hc : unsuffixed (contextFor s.engine key args) = c)
    (hfound : s.engine.findTemplate c.locale (c.space.getD "") (c.name.getD "") (countOf c.vars) =
      some template) :
    (phrase answer key args s).1 =
      (s.registry.foldl (s.passed .after)
        { c with result := some (s.engine.render template c.vars) }).result.getD "" := by
  obtain ⟨journal, hbefore⟩ := w.dispatch_before hs answer (contextFor s.engine key args)
  obtain ⟨journal', hafter⟩ := w.dispatch (s := { s with journal }) hs (.inr rfl) answer
    { c with result := some (s.engine.render template c.vars) }
  unfold phrase
  rw [hbefore, hc]
  dsimp only
  rw [hfound]
  dsimp only [finish]
  rw [hafter]
  rfl

/-- The numbers are written first, and then the letter case is changed. -/
theorem phrase_numbers_first (w : Writers numbers letters) (hs : s.registry = [numbers, letters])
    (answer : Handler Engine) {template : String}
    (hc : unsuffixed (contextFor s.engine key args) = c)
    (hfound : s.engine.findTemplate c.locale (c.space.getD "") (c.name.getD "") (countOf c.vars) =
      some template) :
    (phrase answer key args s).1 =
      lettered c (numbered s numbers c (s.engine.render template c.vars)) := by
  rw [w.phrase_of_found (.inl hs) answer hc hfound, hs, List.foldl_cons, List.foldl_cons,
    w.passed_numbers, w.passed_letters]
  rfl

theorem phrase_letters_first (w : Writers numbers letters) (hs : s.registry = [letters, numbers])
    (answer : Handler Engine) {template : String}
    (hc : unsuffixed (contextFor s.engine key args) = c)
    (hfound : s.engine.findTemplate c.locale (c.space.getD "") (c.name.getD "") (countOf c.vars) =
      some template) :
    (phrase answer key args s).1 =
      numbered s numbers c (lettered c (s.engine.render template c.vars)) := by
  rw [w.phrase_of_found (.inr hs) answer hc hfound, hs, List.foldl_cons, List.foldl_cons,
    w.passed_letters, w.passed_numbers]
  rfl

end Writers

/-! ### Keys with an ending -/

/-- The context of a call for the key with the ending of `t`, once the ending is off. -/
def askedFor (e : Engine) (key : String) (args : Arguments) (t : Transform) : Context :=
  { contextFor e key args with data := [(Capitalize.field, .str t.word)] }

theorem unsuffixed_of_plain {e : Engine}
    (h : ∀ u : Transform, ¬ u.ending <:+ (e.sought key).name.toList) :
    unsuffixed (contextFor e key args) = contextFor e key args := by
  have hname : (contextFor e key args).name = some (e.sought key).name := rfl
  unfold unsuffixed Capitalize.patch?
  rw [hname, Option.bind_some, Transform.split?_eq_none h]
  rfl

theorem sought_append_suffix (e : Engine) (hkey : Key.normalize key = key) (t : Transform) :
    e.sought (key ++ t.suffix) = { e.sought key with name := (e.sought key).name ++ t.suffix } := by
  have hall : (t.suffix.toList.all fun c => Key.isMargin c == false) = true := by
    cases t <;> decide
  exact Key.parse_append_ending _ _ hkey fun c hc => eq_of_beq (List.all_eq_true.1 hall c hc)

theorem unsuffixed_append_suffix (e : Engine) (hkey : Key.normalize key = key) (args : Arguments)
    (t : Transform) :
    unsuffixed (contextFor e (key ++ t.suffix) args) = askedFor e key args t := by
  have hcontext : contextFor e (key ++ t.suffix) args =
      { contextFor e key args with name := some ((e.sought key).name ++ t.suffix) } := by
    have hspelled : ∀ k, contextFor e k args =
        { locale := e.locale, space := some (e.sought k).space, name := some (e.sought k).name,
          vars := args.vars } := fun _ => rfl
    rw [hspelled, hspelled, sought_append_suffix e hkey t]
  unfold unsuffixed Capitalize.patch?
  rw [hcontext, Option.bind_some, Transform.split?_append_suffix]
  rfl

theorem lettered_askedFor (e : Engine) (key : String) (args : Arguments) (t : Transform)
    (text : String) : lettered (askedFor e key args t) text = t.apply text := by
  have hchange : Capitalize.transform? (askedFor e key args t).data = some t := t.ofWord?_word
  rw [lettered, hchange]
  rfl

/-- With the ending of a change behind the key, the answer is the changed answer to the key if
numbers are written before. If they are written after the change, they are those of the changed
text: without a brace in the text that makes no difference, nor does a capital at the start of a
text that does not begin with a number. -/
theorem suffixed_phrase (w : Writers numbers letters)
    (hs : s.registry = [numbers, letters] ∨ s.registry = [letters, numbers])
    (hkey : Key.normalize key = key) {template : String}
    (hfound : s.engine.template? key args = some template)
    (hplain : ∀ u : Transform, ¬ u.ending <:+ (s.engine.sought key).name.toList)
    (answer : Handler Engine) (t : Transform) :
    let text := s.engine.render template args.vars
    let write := NumberFormat.written (s.memory numbers.ticket NumberFormat.initialLocale)
      s.engine.locale args.vars
    let plain := (phrase answer key args s).1
    let suffixed := (phrase answer (key ++ t.suffix) args s).1
    plain = write text ∧
    (s.registry = [numbers, letters] → suffixed = t.apply plain) ∧
    (s.registry = [letters, numbers] →
      suffixed = write (t.apply text) ∧
      (suffixed = t.apply plain ↔ write (t.apply text) = t.apply (write text)) ∧
      ('\x7b' ∉ text.toList → suffixed = t.apply plain) ∧
      (t = .capitalize → NumberToken.read? text.toList = none → suffixed = t.apply plain)) := by
  intro text write plain suffixed
  have hsuffix := unsuffixed_append_suffix s.engine hkey args t
  have hanswer : plain = write text := by
    obtain hs | hs := hs
    · exact w.phrase_numbers_first hs answer (unsuffixed_of_plain hplain) hfound
    · exact w.phrase_letters_first hs answer (unsuffixed_of_plain hplain) hfound
  refine ⟨hanswer, fun hs => ?_, fun hs => ?_⟩
  · have hchanged := w.phrase_numbers_first hs answer hsuffix hfound
    rw [lettered_askedFor] at hchanged
    rw [hanswer]
    exact hchanged
  · have hsuffixed : suffixed = write (t.apply text) := by
      have hchanged := w.phrase_letters_first hs answer hsuffix hfound
      rw [lettered_askedFor] at hchanged
      exact hchanged
    rw [hsuffixed, hanswer]
    refine ⟨rfl, Iff.rfl, fun hbrace => ?_, fun ht hread => ?_⟩
    · have hbrace' : '\x7b' ∉ (t.apply text).toList := by
        rw [Transform.apply, String.toList_ofList]
        exact t.brace_notMem_applyChars hbrace
      have hkeep : write text = text := NumberFormat.written_of_notMem hbrace
      rw [hkeep]
      exact NumberFormat.written_of_notMem hbrace'
    · rw [ht]
      exact NumberFormat.written_capitalize hread

/-- A phrase book with a price in it, where one of the plugins is registered before the other. -/
def priced (first second : Plugin) : Service :=
  addCatalog (Service.answer 1) "en" "ns" [("price", .text "only \x7bamount|currency:EUR\x7d")]
    (create { settings := { locale := "en" }, plugins := [(first, none), (second, none)] }).2

def fiveEuros : Arguments where
  vars := some [("amount", .int 5)]

theorem suffixed_phrase_priced :
    let s := priced NumberFormat.plugin Capitalize.plugin
    (phrase (Service.answer 1) "ns:price" fiveEuros s).1 = "only €5.00" ∧
      (phrase (Service.answer 1) "ns:price_upper" fiveEuros s).1 = "ONLY €5.00" := by
  intro s
  have hs : s.registry = [⟨0, NumberFormat.plugin, {}⟩, ⟨1, Capitalize.plugin, {}⟩] := rfl
  have hfound : s.engine.template? "ns:price" fiveEuros =
      some "only \x7bamount|currency:EUR\x7d" := by decide +kernel
  have hplain : ∀ u : Transform, ¬ u.ending <:+ (s.engine.sought "ns:price").name.toList := by
    intro u
    cases u <;> decide +kernel
  obtain ⟨hanswer, hchanged, -⟩ := suffixed_phrase ⟨rfl, rfl, rfl, rfl⟩ (.inl hs)
    (by decide +kernel) hfound hplain (Service.answer 1) .upper
  have hprice : (phrase (Service.answer 1) "ns:price" fiveEuros s).1 = "only €5.00" :=
    hanswer.trans (by decide +kernel)
  refine ⟨hprice, (hchanged hs).trans ?_⟩
  rw [hprice]
  decide +kernel

/-- The other way round the capitals come first, and no number token with a known name is left. -/
theorem suffixed_phrase_garbled :
    let s := priced Capitalize.plugin NumberFormat.plugin
    (phrase (Service.answer 1) "ns:price" fiveEuros s).1 = "only €5.00" ∧
      (phrase (Service.answer 1) "ns:price_upper" fiveEuros s).1 =
        "ONLY \x7bAMOUNT|CURRENCY:EUR\x7d" ∧
      Transform.upper.apply "only €5.00" = "ONLY €5.00" :=
  ⟨by decide +kernel, by decide +kernel, by decide +kernel⟩

end Service

end Phrasebook
