import Phrasebook.Proofs.Service.Completion

/-!
# Rounds of notifications

In a round those who listen are told of one change, up to the first who panics. `requestRounds` lists
the rounds of a request in order, with those inside of what its plugins ask for. `Tells` says that
they account for every notification in the journal, with what the listener found, and that the
change of each is in effect, and `request_tells` that this is so for every request as long as
listeners ask for nothing.
-/

namespace Phrasebook

/-- What listeners are told of. -/
inductive Change where
  | catalog (locale space : String) (c : Catalog)
  | locale (old new : String)

def Change.IsCatalog : Change → Prop
  | .catalog _ _ _ => True
  | .locale _ _ => False

/-- A change, and the phrase book when the first listener is about to be told. -/
structure Round where
  change : Change
  book : Service

/-- The listener panics when it is told, if it asks for nothing. -/
def Listener.panics (l : Listener) (s : Service) : Bool :=
  match (l.respond (s.memory l.ticket "")).outcome with
  | .panicked => true
  | _ => false

/-- The first of the listeners, up to one who panics. -/
def Service.reached (s : Service) : List Listener → List Listener
  | [] => []
  | l :: ls => l :: if l.panics s then [] else reached s ls

namespace Round

/-- Those who are told. -/
def heard (R : Round) : List Listener :=
  R.book.reached R.book.engine.listeners

/-- The tickets of those who are told, each with what it finds. -/
def calls (R : Round) : List (Nat × Engine) :=
  R.heard.map fun l => (l.ticket, R.book.engine)

/-- The phrase book has been where the round begins, and its calls came next. -/
def Within (R : Round) (t : Service) : Prop :=
  ∃ es, t.journal = R.book.journal ++ es ∧ R.calls <+: es.filterMap Event.notice?

theorem Within.mono {R : Round} {t u : Service} (h : R.Within t) (hj : t.journal <+: u.journal) :
    R.Within u := by
  obtain ⟨es, ht, hcalls⟩ := h
  obtain ⟨more, hu⟩ := hj
  refine ⟨es ++ more, ?_, ?_⟩
  · rw [← hu, ht, List.append_assoc]
  · rw [List.filterMap_append]
    exact hcalls.trans (List.prefix_append _ _)

end Round

namespace Service

/-! ### The rounds of a request -/

section

variable (answer : Handler Engine) (inner : Request → Service → List Round)

/-- The rounds while a script runs, where `inner` gives those of its requests. -/
def scriptRounds (ticket : Nat) : Script → Service → List Round
  | .finish _, _ => []
  | .note entry rest, s => scriptRounds ticket rest (s.log (.noted entry))
  | .remember memory rest, s => scriptRounds ticket rest (s.remember ticket memory)
  | .ask request next, s =>
    inner request s ++
      if (answer request s).1 = .panicked then []
      else scriptRounds ticket (next (answer request s).1) (answer request s).2

def callRounds (ticket : Nat) (p : Plugin) (c : Call) (s : Service) : List Round :=
  scriptRounds answer inner ticket (p.respond (s.memory ticket p.memory) c)
    (s.log (.called ticket p.info.name c))

def hookRounds (hook : Hook) : List Registration → Context → Service → List Round
  | [], _, _ => []
  | r :: rs, c, s =>
    let (o, t) := s.call answer r.ticket r.plugin (hook.call c)
    callRounds answer inner r.ticket r.plugin (hook.call c) s ++ hookRounds hook rs (hook.absorb c o) t

def dispatchRounds (hook : Hook) (c : Context) (s : Service) : List Round :=
  hookRounds answer inner hook s.enabled c s

def setLocaleRounds (locale : String) (s : Service) : List Round :=
  let hook := Hook.localeChange s.engine.locale locale
  let u := mapEngine s fun e => { e with locale, formatLocale := locale }
  dispatchRounds answer inner hook { locale } u ++
    [⟨.locale s.engine.locale locale, (u.dispatch answer hook { locale }).2⟩]

def finishRounds (c : Context) (template : String) (s : Service) : List Round :=
  dispatchRounds answer inner .after { c with result := some (s.engine.render template c.vars) } s

def phraseRounds (key : String) (args : Arguments) (s : Service) : List Round :=
  let before := contextFor s.engine key args
  let (c, u) := s.dispatch answer .before before
  let space := c.space.getD ""
  let name := c.name.getD ""
  dispatchRounds answer inner .before before s ++
    match u.engine.findTemplate c.locale space name (countOf c.vars) with
    | some template => finishRounds answer inner c template u
    | none =>
      let template := args.text?.getD key
      let c := { c with result := some template }
      dispatchRounds answer inner .missing c u ++
        finishRounds answer inner c template (miss answer c space name (args.text?.getD name) u)

def registerRounds (p : Plugin) (config : Option PluginConfig) (s : Service) : List Round :=
  match s.objection? p.info with
  | some _ => []
  | none =>
    callRounds answer inner s.tickets p (.init (config.getD p.defaultConfig).options)
      { s with tickets := s.tickets + 1 }

def unregisterRounds (name : String) (s : Service) : List Round :=
  match s.find? name with
  | none => []
  | some r =>
    match s.registry.find? fun d => d.plugin.info.dependencies.contains name with
    | some _ => []
    | none =>
      callRounds answer inner r.ticket r.plugin .destroy
        { s with registry := s.registry.eraseP (·.name == name) }

def clearRounds : List Registration → Service → List Round
  | [], _ => []
  | r :: rs, s =>
    callRounds answer inner r.ticket r.plugin .destroy s ++ clearRounds rs (s.destroy answer r)

end

/-- The rounds of a request answered up to `depth` deep. -/
def requestRounds : Nat → Request → Service → List Round
  | 0, _, _ => []
  | depth + 1, request, s =>
    match request with
    | .phrase key args => phraseRounds (answer depth) (requestRounds depth) key args s
    | .addCatalog l n c => [⟨.catalog l n c, mapEngine s (·.install l n c)⟩]
    | .setLocale locale => setLocaleRounds (answer depth) (requestRounds depth) locale s
    | .register p config => registerRounds (answer depth) (requestRounds depth) p config s
    | .unregister name => unregisterRounds (answer depth) (requestRounds depth) name s
    | .setEnabled _ _ => []
    | .clear =>
      clearRounds (answer depth) (requestRounds depth) s.registry.reverse { s with registry := [] }

end Service

open Service

/-- The new catalog is stored and marked as loaded. The new locale is set everywhere and the plugins
were told of it, and it is still there unless they have set another. -/
def Round.InEffect (R : Round) : Prop :=
  match R.change with
  | .catalog l n c => R.book.engine.store.catalog? l n = some c ∧ (l, n) ∈ R.book.engine.loaded
  | .locale old new =>
    R.book.engine.formatLocale = R.book.engine.locale ∧
    ∃ (depth : Nat) (u : Service), u.engine.locale = new ∧ u.engine.formatLocale = new ∧
      R.book = (u.dispatch (answer depth) (.localeChange old new) { locale := new }).2 ∧
      ((∀ R' ∈ dispatchRounds (answer depth) (requestRounds depth) (.localeChange old new)
          { locale := new } u, R'.change.IsCatalog) → R.book.engine.locale = new)

namespace Service

/-! ### What the rounds account for -/

/-- Listeners differ and ask for nothing, and messages are formatted for the locale. -/
structure Receptive (s : Service) : Prop where
  quiet : ∀ l ∈ s.engine.listeners, l.Quiet
  distinct : s.audience.Nodup
  format : s.engine.formatLocale = s.engine.locale

/-- Between `s` and `t` there were these rounds, and no other notifications. -/
structure Told (s : Service) (rs : List Round) (t : Service) : Prop where
  listeners : t.engine.listeners = s.engine.listeners
  tickets : s.tickets ≤ t.tickets
  format : t.engine.formatLocale = t.engine.locale
  journal : s.journal <+: t.journal
  notices : t.notices = s.notices ++ rs.flatMap Round.calls
  rounds : ∀ R ∈ rs, R.book.engine.listeners = s.engine.listeners ∧ R.InEffect ∧ R.Within t
  locale : (∀ R ∈ rs, R.change.IsCatalog) → t.engine.locale = s.engine.locale

def Tells (s : Service) (rs : List Round) (t : Service) : Prop :=
  s.Receptive → Told s rs t

variable {s t u : Service} {rs rs' : List Round} {answer : Handler Engine}
  {inner : Request → Service → List Round}

theorem Told.audience (h : Told s rs t) : t.audience = s.audience :=
  audience_congr h.listeners

theorem Told.receptive (h : Told s rs t) (hs : s.Receptive) : t.Receptive := by
  refine ⟨?_, ?_, h.format⟩
  · rw [h.listeners]
    exact hs.quiet
  · rw [h.audience]
    exact hs.distinct

theorem Tells.trans (h : Tells s rs t) (h' : Tells t rs' u) : Tells s (rs ++ rs') u := by
  intro hs
  have hst := h hs
  have htu := h' (hst.receptive hs)
  refine ⟨htu.listeners.trans hst.listeners, hst.tickets.trans htu.tickets, htu.format,
    hst.journal.trans htu.journal, ?_, ?_, ?_⟩
  · rw [htu.notices, hst.notices, List.flatMap_append, List.append_assoc]
  · intro R hR
    rcases List.mem_append.1 hR with hR | hR
    · obtain ⟨hlisteners, heffect, hwithin⟩ := hst.rounds R hR
      exact ⟨hlisteners, heffect, hwithin.mono htu.journal⟩
    · rw [← hst.listeners]
      exact htu.rounds R hR
  · intro hcatalogs
    rw [htu.locale fun R hR => hcatalogs R (List.mem_append_right _ hR)]
    exact hst.locale fun R hR => hcatalogs R (List.mem_append_left _ hR)

/-- Nothing more is told at the end. -/
theorem Tells.then (h : Tells s rs t) (h' : Tells t [] u) : Tells s rs u := by
  have hall := h.trans h'
  rw [List.append_nil] at hall
  exact hall

/-- A step that tells no one and leaves the locale. -/
theorem Tells.still (hl : t.engine.listeners = s.engine.listeners) (ht : s.tickets ≤ t.tickets)
    (hj : s.journal <+: t.journal) (hn : t.notices = s.notices)
    (hlocale : t.engine.locale = s.engine.locale)
    (hformat : t.engine.formatLocale = s.engine.formatLocale) : Tells s [] t := by
  intro hs
  refine ⟨hl, ht, ?_, hj, ?_, by simp, fun _ => hlocale⟩
  · rw [hformat, hlocale]
    exact hs.format
  · rw [hn]
    exact (List.append_nil _).symm

theorem Tells.refl (s : Service) : Tells s [] s :=
  .still rfl (Nat.le_refl _) List.prefix_rfl rfl rfl rfl

theorem Tells.log {e : Event} (he : e.notice? = none) (s : Service) : Tells s [] (s.log e) :=
  .still rfl (Nat.le_refl _) (List.prefix_append _ _) (notices_log he s) rfl rfl

theorem Tells.recordMissing (l n k text : String) (s : Service) :
    Tells s [] (mapEngine s (·.recordMissing l n k text)) := by
  obtain ⟨saving, loading, tasks, h⟩ := Engine.recordMissing_frame s.engine l n k text
  have hengine : (mapEngine s (·.recordMissing l n k text)).engine =
      s.engine.recordMissing l n k text := rfl
  refine .still ?_ (Nat.le_refl _) List.prefix_rfl rfl ?_ ?_ <;> rw [hengine, h]

/-! ### One round -/

theorem tellOne_eq_panicked (answer : Handler Engine) {l : Listener} (hq : l.Quiet) (s : Service) :
    (tellOne answer l s).1 = .panicked ↔ l.panics s = true := by
  have hrun : (tellOne answer l s).1 = (l.respond (s.memory l.ticket "")).outcome :=
    Script.run_outcome answer l.ticket _ (hq _) _
  rw [hrun, Listener.panics]
  cases (l.respond (s.memory l.ticket "")).outcome <;> simp

/-- Whether a listener panics depends on nothing but what it remembers. -/
theorem reached_congr {ls : List Listener}
    (h : ∀ l ∈ ls, t.memories.lookup l.ticket = s.memories.lookup l.ticket) :
    reached t ls = reached s ls := by
  induction ls with
  | nil => rfl
  | cons l ls ih =>
    have hpanics : l.panics t = l.panics s := by
      unfold Listener.panics Host.memory
      rw [h l List.mem_cons_self]
    rw [reached, reached, hpanics, ih fun l' hl' => h l' (List.mem_cons_of_mem _ hl')]

theorem reached_initial (s : Service) (ls : List Listener) : reached s ls <+: ls := by
  induction ls with
  | nil => exact List.prefix_rfl
  | cons l ls ih =>
    rw [reached]
    split
    · exact List.prefix_append [l] ls
    · exact List.prefix_cons_inj l |>.2 ih

/-- Everyone is reached, if no one who is reached panics. -/
theorem reached_eq {ls : List Listener} (h : ∀ l ∈ reached s ls, l.panics s = false) :
    reached s ls = ls := by
  induction ls with
  | nil => rfl
  | cons l ls ih =>
    rw [reached] at h ⊢
    have hfirst := h l List.mem_cons_self
    rw [hfirst] at h ⊢
    rw [if_neg Bool.false_ne_true, ih fun l' hl' => h l' (List.mem_cons_of_mem _ hl')]

/-- Those who are reached are told in turn, and each finds what the first found. -/
theorem tellEach_quiet (answer : Handler Engine) {ls : List Listener} (hq : ∀ l ∈ ls, l.Quiet)
    (hd : (ls.map (·.ticket)).Nodup) (s : Service) :
    (tellEach answer ls s).2.tickets = s.tickets ∧
      ∃ es, (tellEach answer ls s).2.journal = s.journal ++ es ∧
        es.filterMap Event.notice? = (reached s ls).map fun l => (l.ticket, s.engine) := by
  induction ls generalizing s with
  | nil => exact ⟨rfl, [], (List.append_nil _).symm, rfl⟩
  | cons l ls ih =>
    have hfirst := hq l List.mem_cons_self
    have hconfined := Script.run_confined answer l.ticket (hfirst (s.memory l.ticket ""))
      (s.log (.notified l.ticket s.engine))
    obtain ⟨es, hjournal, hnone⟩ := journal_tellOne answer hfirst s
    have hnotice : (Event.notified l.ticket s.engine :: es).filterMap Event.notice? =
        [(l.ticket, s.engine)] := congrArg (List.cons (l.ticket, s.engine)) hnone
    have hpanics := tellOne_eq_panicked answer hfirst s
    rcases tellEach_cons answer l ls s with ⟨hpanic, he⟩ | ⟨hno, he⟩
    · rw [he, reached, if_pos (hpanics.1 hpanic)]
      exact ⟨hconfined.tickets, _, hjournal, hnotice⟩
    · obtain ⟨hne, hd⟩ := List.nodup_cons.1 hd
      obtain ⟨htickets, es', hjournal', hnotices⟩ :=
        ih (fun l' hl' => hq l' (List.mem_cons_of_mem _ hl')) hd (tellOne answer l s).2
      have hreached : reached (tellOne answer l s).2 ls = reached s ls := by
        refine reached_congr fun l' hl' => hconfined.memories l'.ticket fun heq => hne ?_
        exact List.mem_map.2 ⟨l', hl', heq⟩
      have hengine : (tellOne answer l s).2.engine = s.engine := hconfined.engine
      rw [he, reached, if_neg fun h => hno (hpanics.2 h)]
      refine ⟨htickets.trans hconfined.tickets, .notified l.ticket s.engine :: es ++ es', ?_, ?_⟩
      · rw [hjournal', hjournal, List.append_assoc]
      · rw [List.filterMap_append, hnotice, hnotices, hreached, hengine]
        rfl

theorem Tells.notify (answer : Handler Engine) {change : Change}
    (hc : s.Receptive → Round.InEffect ⟨change, s⟩) :
    Tells s [⟨change, s⟩] (Service.notify answer s).2 := by
  intro hs
  obtain ⟨-, hengine⟩ := notify_quiet answer hs.quiet
  obtain ⟨htickets, es, hjournal, hnotices⟩ := tellEach_quiet answer hs.quiet hs.distinct s
  change (Service.notify answer s).2.tickets = _ at htickets
  change (Service.notify answer s).2.journal = _ at hjournal
  refine ⟨by rw [hengine], Nat.le_of_eq htickets.symm, ?_, ?_, ?_, ?_, ?_⟩
  · rw [hengine]
    exact hs.format
  · rw [hjournal]
    exact List.prefix_append _ _
  · unfold notices
    rw [hjournal, List.filterMap_append, hnotices, List.flatMap_singleton]
    rfl
  · intro R hR
    obtain rfl := List.mem_singleton.1 hR
    exact ⟨rfl, hc hs, es, hjournal, hnotices ▸ List.prefix_rfl⟩
  · intro _
    rw [hengine]

/-! ### Scripts and calls -/

/-- The handler tells what the rounds say. -/
def Watched (answer : Handler Engine) (inner : Request → Service → List Round) : Prop :=
  ∀ request s, Tells s (inner request s) (answer request s).2

theorem Watched.script (ha : Watched answer inner) (ticket : Nat) (script : Script) (s : Service) :
    Tells s (scriptRounds answer inner ticket script s) (script.run answer ticket s).2 := by
  match script with
  | .ask request next =>
    rw [scriptRounds, Script.run_ask]
    split
    · rw [List.append_nil]
      exact ha request s
    · exact (ha request s).trans (ha.script ticket _ _)
  | .note entry rest => exact (Tells.log rfl s).trans (ha.script ticket rest _)
  | .remember memory rest =>
    have hstep : Tells s [] (s.remember ticket memory) :=
      .still rfl (Nat.le_refl _) List.prefix_rfl rfl rfl rfl
    exact hstep.trans (ha.script ticket rest _)
  | .finish o => exact .refl s

theorem Watched.call (ha : Watched answer inner) (ticket : Nat) (p : Plugin) (c : Call)
    (s : Service) : Tells s (callRounds answer inner ticket p c s) (s.call answer ticket p c).2 :=
  (Tells.log rfl s).trans (ha.script ticket _ _)

theorem Watched.hooks (ha : Watched answer inner) (hook : Hook) (regs : List Registration)
    (c : Context) (s : Service) :
    Tells s (hookRounds answer inner hook regs c s) (Host.dispatchTo answer hook regs c s).2 := by
  induction regs generalizing c s with
  | nil => exact .refl s
  | cons r regs ih => exact (ha.call r.ticket r.plugin (hook.call c) s).trans (ih _ _)

theorem Watched.dispatch (ha : Watched answer inner) (hook : Hook) (c : Context) (s : Service) :
    Tells s (dispatchRounds answer inner hook c s) (s.dispatch answer hook c).2 :=
  ha.hooks hook s.enabled c s

/-! ### Texts and locales -/

theorem inEffect_catalog (l n : String) (c : Catalog) (s : Service) :
    Round.InEffect ⟨.catalog l n c, mapEngine s (·.install l n c)⟩ := by
  refine ⟨?_, mem_loaded_install s.engine l n c⟩
  show (s.engine.store.setCatalog l n c).catalog? l n = some c
  rw [Store.catalog?_setCatalog, if_pos ⟨rfl, rfl⟩]

theorem tells_announceCatalog (answer : Handler Engine) (l n : String) (c : Catalog) (s : Service) :
    Tells s [⟨.catalog l n c, mapEngine s (·.install l n c)⟩]
      (announceCatalog answer l n c s).2 := by
  have hinstalled : Tells s [] (mapEngine s (·.install l n c)) :=
    .still rfl (Nat.le_refl _) List.prefix_rfl rfl rfl rfl
  exact hinstalled.trans (.notify answer fun _ => inEffect_catalog l n c s)

theorem Watched.setLocale {depth : Nat} (ha : Watched (Service.answer depth) (requestRounds depth))
    (locale : String) (s : Service) :
    Tells s (setLocaleRounds (Service.answer depth) (requestRounds depth) locale s)
      (Service.setLocale (Service.answer depth) locale s) := by
  intro hs
  let u := mapEngine s fun e => { e with locale, formatLocale := locale }
  let hook := Hook.localeChange s.engine.locale locale
  have hu : u.Receptive := ⟨hs.quiet, hs.distinct, rfl⟩
  have hhooks := ha.dispatch hook { locale } u
  have hround : Tells (u.dispatch (Service.answer depth) hook { locale }).2
      [⟨.locale s.engine.locale locale, (u.dispatch (Service.answer depth) hook { locale }).2⟩]
      (Service.setLocale (Service.answer depth) locale s) := by
    refine .notify _ fun hv => ⟨hv.format, depth, u, rfl, rfl, rfl, fun hcatalogs => ?_⟩
    exact (hhooks hu).locale hcatalogs
  have htold := hhooks.trans hround hu
  refine ⟨htold.listeners, htold.tickets, htold.format, htold.journal, htold.notices, htold.rounds,
    ?_⟩
  intro hcatalogs
  exact (hcatalogs _ (List.mem_append_right _ List.mem_cons_self)).elim

theorem Watched.finish (ha : Watched answer inner) (c : Context) (template : String) (s : Service) :
    Tells s (finishRounds answer inner c template s) (Service.finish answer c template s).2 :=
  ha.dispatch .after _ s

theorem Watched.phrase (ha : Watched answer inner) (key : String) (args : Arguments)
    (s : Service) :
    Tells s (phraseRounds answer inner key args s) (Service.phrase answer key args s).2 := by
  have hbefore := ha.dispatch .before (contextFor s.engine key args) s
  unfold phraseRounds Service.phrase
  dsimp only
  generalize s.dispatch answer .before (contextFor s.engine key args) = found at hbefore ⊢
  obtain ⟨c, u⟩ := found
  dsimp only at hbefore ⊢
  refine hbefore.trans ?_
  cases u.engine.findTemplate c.locale (c.space.getD "") (c.name.getD "") (countOf c.vars) with
  | some template => exact ha.finish _ _ _
  | none =>
    have hmissing := ha.dispatch .missing { c with result := some (args.text?.getD key) } u
    have hmiss := hmissing.then
      (Tells.recordMissing c.locale (c.space.getD "") (c.name.getD "")
        (args.text?.getD (c.name.getD "")) _)
    exact hmiss.trans (ha.finish _ _ _)

/-! ### The registry -/

theorem Watched.register (ha : Watched answer inner) (p : Plugin) (config : Option PluginConfig)
    (s : Service) :
    Tells s (registerRounds answer inner p config s) (s.register answer p config).2 := by
  cases ho : s.objection? p.info with
  | some e =>
    unfold registerRounds Host.register
    rw [ho]
    exact .refl s
  | none =>
    have hticket : Tells s [] { s with tickets := s.tickets + 1 } :=
      .still rfl (Nat.le_succ _) List.prefix_rfl rfl rfl rfl
    have hcall := hticket.trans
      (ha.call s.tickets p (.init (config.getD p.defaultConfig).options) _)
    unfold registerRounds
    rw [ho]
    rcases Host.register_state answer ho config with he | he
    · rw [he]
      exact hcall
    · rw [he]
      have hadd : ∀ (t : Service) r, Tells t [] { t with registry := t.registry ++ [r] } :=
        fun t r => .still rfl (Nat.le_refl _) List.prefix_rfl rfl rfl rfl
      exact hcall.then (hadd _ ⟨s.tickets, p, config.getD p.defaultConfig⟩)

theorem Watched.unregister (ha : Watched answer inner) (name : String) (s : Service) :
    Tells s (unregisterRounds answer inner name s) (s.unregister answer name).2 := by
  unfold unregisterRounds Host.unregister
  cases s.find? name with
  | none => exact .refl s
  | some r =>
    dsimp only
    cases s.registry.find? fun d => d.plugin.info.dependencies.contains name with
    | some d => exact .refl s
    | none =>
      have hdrop : Tells s [] { s with registry := s.registry.eraseP (·.name == name) } :=
        .still rfl (Nat.le_refl _) List.prefix_rfl rfl rfl rfl
      exact hdrop.trans (ha.call r.ticket r.plugin .destroy _)

theorem Watched.clear (ha : Watched answer inner) (s : Service) :
    Tells s (clearRounds answer inner s.registry.reverse { s with registry := [] })
      (s.clear answer) := by
  have each : ∀ (regs : List Registration) (s : Service),
      Tells s (clearRounds answer inner regs s) (regs.foldl (fun h r => h.destroy answer r) s) := by
    intro regs
    induction regs with
    | nil => exact fun s => .refl s
    | cons r regs ih => exact fun s => (ha.call r.ticket r.plugin .destroy s).trans (ih _)
  have hempty : Tells s [] { s with registry := [] } := .still rfl (Nat.le_refl _) List.prefix_rfl rfl rfl rfl
  exact hempty.trans (each s.registry.reverse _)

/-! ### Requests and moves -/

/-- The rounds of a request account for all that listeners are told of while it is answered. -/
theorem request_tells (depth : Nat) : Watched (Service.answer depth) (requestRounds depth) := by
  induction depth with
  | zero => exact fun request s => Tells.log rfl s
  | succ depth ih =>
    intro request s
    cases request with
    | phrase key args => exact ih.phrase key args s
    | addCatalog l n c => exact tells_announceCatalog (Service.answer depth) l n c s
    | setLocale locale => exact ih.setLocale locale s
    | register p config =>
      rw [Service.answer, Host.answerRegistry_register]
      exact ih.register p config s
    | unregister name =>
      rw [Service.answer, Host.answerRegistry_unregister]
      exact ih.unregister name s
    | setEnabled name enabled => exact .still rfl (Nat.le_refl _) List.prefix_rfl rfl rfl rfl
    | clear => exact ih.clear s

/-- The rounds of a move: those of a request, or of a catalog that was found and what plugins that
are told of it ask for. -/
def moveRounds (depth : Nat) (s : Service) : Move → List Round
  | .request r => requestRounds (depth + 1) r s
  | .loadEnds index (.found c) =>
    match s.engine.askedJob? index with
    | some (.load l n) =>
      let installed := mapEngine s (·.install l n c)
      ⟨.catalog l n c, installed⟩ ::
        match notify (Service.answer depth) installed with
        | (.panicked, _) => []
        | (.returned, t) =>
          dispatchRounds (Service.answer depth) (requestRounds depth) (.load l n c)
            { locale := l, space := some n } t
    | _ => []
  | _ => []

theorem tells_endLoad (l n : String) (r : LoadResult) (s : Service) :
    Tells s [] (mapEngine s (·.endLoad l n r)) := by
  cases r <;> exact .still rfl (Nat.le_refl _) List.prefix_rfl rfl rfl rfl

/-- A catalog that is found is told of like one that is added, and then plugins are unless a listener
panicked. -/
theorem tells_found (depth index : Nat) (c : Catalog) (s : Service) :
    Tells s (moveRounds depth s (.loadEnds index (.found c)))
      (step depth s (.loadEnds index (.found c))) := by
  rw [step, moveRounds]
  cases s.engine.askedJob? index with
  | none => exact .refl s
  | some job =>
    cases job with
    | save => exact .refl s
    | load l n =>
      have hround := tells_announceCatalog (Service.answer depth) l n c s
      have hend := tells_endLoad l n (loadEnd (Service.answer depth) l n s (.found c))
      dsimp only
      rw [finishLoad_found]
      unfold tell
      change Tells s _ (notify (Service.answer depth) (mapEngine s (·.install l n c))).2 at hround
      generalize notify (Service.answer depth) (mapEngine s (·.install l n c)) = told at hround ⊢
      obtain ⟨ending, t⟩ := told
      cases ending with
      | panicked => exact hround.then (hend t)
      | returned =>
        have hhooks := hround.trans ((request_tells depth).dispatch (.load l n c)
          { locale := l, space := some n } t)
        exact hhooks.then (hend _)

theorem tells_not_found (depth index : Nat) {r : LoadResult} (hr : ∀ c, r ≠ .found c)
    (s : Service) :
    Tells s (moveRounds depth s (.loadEnds index r)) (step depth s (.loadEnds index r)) := by
  have hnone : moveRounds depth s (.loadEnds index r) = [] := by
    cases r with
    | found c => exact absurd rfl (hr c)
    | absent => rfl
    | failed => rfl
    | panicked => rfl
  rw [step, hnone]
  split
  · rw [finishLoad_of_not_found _ _ _ hr]
    exact tells_endLoad _ _ r s
  · exact .refl s

/-- Whatever happens but the coming and going of listeners. -/
theorem step_tells (depth : Nat) (s : Service) {m : Move} (hsub : ∀ script, m ≠ .subscribe script)
    (hunsub : ∀ ticket, m ≠ .unsubscribe ticket) :
    Tells s (moveRounds depth s m) (step depth s m) := by
  cases m with
  | request r => exact request_tells (depth + 1) r s
  | subscribe script => exact absurd rfl (hsub script)
  | unsubscribe ticket => exact absurd rfl (hunsub ticket)
  | background available => exact .still rfl (Nat.le_refl _) List.prefix_rfl rfl rfl rfl
  | ask index =>
    rw [step]
    split
    · rename_i job _
      have hevent : Event.notice? job.event = none := by cases job <;> rfl
      have hasked : Tells (s.log job.event) [] (ask index job s) :=
        .still rfl (Nat.le_refl _) List.prefix_rfl rfl rfl rfl
      exact (Tells.log hevent s).trans hasked
    · exact .refl s
  | loadEnds index r =>
    by_cases hr : ∃ c, r = .found c
    · obtain ⟨c, rfl⟩ := hr
      exact tells_found depth index c s
    · exact tells_not_found depth index (fun c hc => hr ⟨c, hc⟩) s
  | saveEnds index r =>
    rw [step]
    split
    · rw [finishSave_eq]
      cases r <;> exact .still rfl (Nat.le_refl _) List.prefix_rfl rfl rfl rfl
    · exact .refl s

end Service

end Phrasebook
