import Phrasebook.Proofs.Service.Record

/-!
# What calls and plugins can do to a phrase book

`Conduct` lists the single steps that a call is made of, each with the relation of the phrase book
before it to the one after it. `Conduct.answer_safe` carries such a relation over every request,
with whatever the plugins and listeners ask for meanwhile, as long as all of it is allowed.
-/

namespace Phrasebook

variable {Q : Request → Prop}

mutual

/-- Whatever a script asks for is allowed. -/
def Script.Keeps (Q : Request → Prop) : Script → Prop
  | .finish _ => True
  | .note _ rest => rest.Keeps Q
  | .remember _ rest => rest.Keeps Q
  | .ask request next => (Q request ∧ request.Keeps Q) ∧ ∀ a, (next a).Keeps Q

/-- Whatever a plugin asks for that the request brings along is allowed. -/
def Request.Keeps (Q : Request → Prop) : Request → Prop
  | .register plugin _ => plugin.Keeps Q
  | _ => True

def Plugin.Keeps (Q : Request → Prop) : Plugin → Prop
  | ⟨_, _, _, respond⟩ => ∀ memory call, (respond memory call).Keeps Q

end

/-- Whatever the listener asks for is allowed. -/
def Listener.Keeps (Q : Request → Prop) (l : Listener) : Prop :=
  ∀ memory, (l.respond memory).Keeps Q

mutual

theorem Script.keeps_true (script : Script) : script.Keeps fun _ => True := by
  match script with
  | .finish _ => exact trivial
  | .note _ rest => exact rest.keeps_true
  | .remember _ rest => exact rest.keeps_true
  | .ask request next => exact ⟨⟨trivial, request.keeps_true⟩, fun a => (next a).keeps_true⟩

theorem Request.keeps_true (request : Request) : request.Keeps fun _ => True := by
  match request with
  | .register plugin _ => exact plugin.keeps_true
  | .phrase _ _ => exact trivial
  | .addCatalog _ _ _ => exact trivial
  | .setLocale _ => exact trivial
  | .unregister _ => exact trivial
  | .setEnabled _ _ => exact trivial
  | .clear => exact trivial

theorem Plugin.keeps_true (plugin : Plugin) : plugin.Keeps fun _ => True := by
  match plugin with
  | ⟨_, _, _, respond⟩ => exact fun memory call => (respond memory call).keeps_true

end

/-- A script that asks for something goes on with the answer, unless a panic came out of it. -/
theorem Script.run_ask {ε : Type} (answer : Handler ε) (ticket : Nat) (request : Request)
    (next : Answer → Script) (h : Host ε) :
    (Script.ask request next).run answer ticket h =
      if (answer request h).1 = .panicked then (.panicked, (answer request h).2)
      else (next (answer request h).1).run answer ticket (answer request h).2 := by
  rw [Script.run]
  generalize answer request h = answered
  obtain ⟨a, h'⟩ := answered
  cases a <;> rfl

/-- The job that a loader or saver is asked to do. -/
def Event.job? : Event → Option Job
  | .loaderAsked locale space => some (.load locale space)
  | .saverAsked locale space name text => some (.save locale space name text)
  | _ => none

namespace Host

variable {ε : Type} {inner other : Handler ε} {h : Host ε}

/-- A plugin that nothing speaks against is called, and then it is added or left out. -/
theorem register_state (answer : Handler ε) {p : Plugin} (ho : h.objection? p.info = none)
    (config : Option PluginConfig) :
    let h' := (({ h with tickets := h.tickets + 1 } : Host ε).call answer h.tickets p
      (.init (config.getD p.defaultConfig).options)).2
    (h.register answer p config).2 = h' ∨
      (h.register answer p config).2 =
        { h' with registry := h'.registry ++ [⟨h.tickets, p, config.getD p.defaultConfig⟩] } := by
  intro h'
  unfold register
  rw [ho]
  dsimp only
  split
  · rename_i he
    exact .inl (congrArg Prod.snd he).symm
  · rename_i he
    exact .inl (congrArg Prod.snd he).symm
  · rename_i he
    obtain rfl := congrArg Prod.snd he
    split
    · exact .inl rfl
    · exact .inr rfl

theorem answerRegistry_register (p : Plugin) (config : Option PluginConfig) (h : Host ε) :
    (answerRegistry inner other (.register p config) h).2 = (h.register inner p config).2 := by
  unfold answerRegistry
  dsimp only
  split <;> (rename_i he; rw [he])

theorem answerRegistry_unregister (name : String) (h : Host ε) :
    (answerRegistry inner other (.unregister name) h).2 = (h.unregister inner name).2 := by
  unfold answerRegistry
  dsimp only
  split <;> (rename_i he; rw [he])

end Host

namespace Service

theorem registerAll_state (answer : Handler Engine) (p : Plugin × Option PluginConfig)
    (ps : List (Plugin × Option PluginConfig)) (s : Service) :
    (registerAll answer (p :: ps) s).2 = (s.register answer p.1 p.2).2 ∨
      (registerAll answer (p :: ps) s).2 = (registerAll answer ps (s.register answer p.1 p.2).2).2 := by
  rw [registerAll]
  split
  · rename_i he
    rw [he]
    exact .inr rfl
  · rename_i he
    rw [he]
    exact .inl rfl

theorem create_state (p : ServicePlan) :
    (create p).2 = blank p ∨ (create p).2 = (registerAll Host.refuse p.plugins (blank p)).2 := by
  unfold create
  split
  · exact .inl rfl
  · split <;> (rename_i he; rw [he]; exact .inr rfl)

/-- The others are told unless the first one panics. -/
theorem tellEach_cons (answer : Handler Engine) (l : Listener) (ls : List Listener) (s : Service) :
    ((tellOne answer l s).1 = .panicked ∧
        tellEach answer (l :: ls) s = (.panicked, (tellOne answer l s).2)) ∨
      ((tellOne answer l s).1 ≠ .panicked ∧
        tellEach answer (l :: ls) s = tellEach answer ls (tellOne answer l s).2) := by
  rw [tellEach]
  generalize tellOne answer l s = told
  obtain ⟨o, t⟩ := told
  cases o with
  | panicked => exact .inl ⟨rfl, rfl⟩
  | nothing => exact .inr ⟨by simp, rfl⟩
  | patch p => exact .inr ⟨by simp, rfl⟩
  | text s => exact .inr ⟨by simp, rfl⟩
  | failed message => exact .inr ⟨by simp, rfl⟩

/-- What every listener respects who is told, telling all of them respects. -/
theorem tellEach_frame {answer : Handler Engine} {R : Service → Service → Prop}
    (refl : ∀ s, R s s) (trans : ∀ {s t u}, R s t → R t u → R s u) {ls : List Listener}
    (one : ∀ l ∈ ls, ∀ s, R s (tellOne answer l s).2) (s : Service) :
    R s (tellEach answer ls s).2 := by
  induction ls generalizing s with
  | nil => exact refl s
  | cons l ls ih =>
    have hfirst := one l List.mem_cons_self s
    rcases tellEach_cons answer l ls s with ⟨-, he⟩ | ⟨-, he⟩
    · rw [he]
      exact hfirst
    · rw [he]
      exact trans hfirst (ih (fun l' h => one l' (List.mem_cons_of_mem _ h)) _)

/-- The jobs that the loader and the saver were asked to do so far. -/
def asks (s : Service) : List Job :=
  s.journal.filterMap Event.job?

/-- The plugins and listeners ask only for what is allowed. -/
def Obeys (Q : Request → Prop) (s : Service) : Prop :=
  (∀ r ∈ s.registry, r.plugin.Keeps Q) ∧ ∀ l ∈ s.engine.listeners, l.Keeps Q

theorem obeys_true (s : Service) : s.Obeys fun _ => True :=
  ⟨fun r _ => r.plugin.keeps_true, fun l _ memory => (l.respond memory).keeps_true⟩

/-- A relation that the steps of a call preserve. Between the look-up and the record of a missing
key, plugins may have asked for more. -/
structure Conduct (Q : Request → Prop) (R : Service → Service → Prop) : Prop where
  refl : ∀ s, R s s
  trans : ∀ {s t u}, R s t → R t u → R s u
  quiet : ∀ {s t : Service}, t.engine = s.engine → t.asks = s.asks → R s t
  miss : ∀ {s t : Service} {locale space name : String} {count : Option Float} (text : String),
    s.engine.findTemplate locale space name count = none → R s t →
      R s (mapEngine t (·.recordMissing locale space name text))
  install : ∀ {locale space : String} {c : Catalog} (s : Service),
    Q (.addCatalog locale space c) → R s (mapEngine s (·.install locale space c))
  relocate : ∀ {locale : String} (s : Service), Q (.setLocale locale) →
    R s (mapEngine s fun e => { e with locale, formatLocale := locale })

/-- The way from one phrase book to another, while plugins and listeners obey. -/
def Leads (Q : Request → Prop) (R : Service → Service → Prop) (s t : Service) : Prop :=
  s.Obeys Q → R s t ∧ t.Obeys Q

/-- A handler that carries out allowed requests along the relation. -/
def Safe (Q : Request → Prop) (R : Service → Service → Prop) (answer : Handler Engine) : Prop :=
  ∀ request s, Q request → request.Keeps Q → Leads Q R s (answer request s).2

namespace Conduct

variable {R : Service → Service → Prop} {answer : Handler Engine}

theorem and {R' : Service → Service → Prop} (hc : Conduct Q R) (hc' : Conduct Q R') :
    Conduct Q fun s t => R s t ∧ R' s t where
  refl := fun s => ⟨hc.refl s, hc'.refl s⟩
  trans := fun h h' => ⟨hc.trans h.1 h'.1, hc'.trans h.2 h'.2⟩
  quiet := fun he ha => ⟨hc.quiet he ha, hc'.quiet he ha⟩
  miss := fun text hf h => ⟨hc.miss text hf h.1, hc'.miss text hf h.2⟩
  install := fun s hq => ⟨hc.install s hq, hc'.install s hq⟩
  relocate := fun s hq => ⟨hc.relocate s hq, hc'.relocate s hq⟩

theorem leads_refl (hc : Conduct Q R) (s : Service) : Leads Q R s s :=
  fun h => ⟨hc.refl s, h⟩

theorem leads_trans (hc : Conduct Q R) {s t u : Service} (h : Leads Q R s t)
    (h' : Leads Q R t u) : Leads Q R s u := by
  intro hs
  obtain ⟨hst, ht⟩ := h hs
  obtain ⟨htu, hu⟩ := h' ht
  exact ⟨hc.trans hst htu, hu⟩

theorem leads_quiet (hc : Conduct Q R) {s t : Service} (he : t.engine = s.engine)
    (ha : t.asks = s.asks) (hr : s.Obeys Q → ∀ r ∈ t.registry, r.plugin.Keeps Q) :
    Leads Q R s t := by
  intro hs
  refine ⟨hc.quiet he ha, hr hs, ?_⟩
  rw [he]
  exact hs.2

theorem asks_log {e : Event} (he : e.job? = none) (s : Service) : asks (s.log e) = s.asks := by
  unfold asks Host.log
  rw [List.filterMap_append, List.filterMap_cons_none he]
  exact List.append_nil _

theorem leads_log (hc : Conduct Q R) {e : Event} (he : e.job? = none) (s : Service) :
    Leads Q R s (s.log e) :=
  hc.leads_quiet rfl (asks_log he s) fun h => h.1

theorem leads_engine {s : Service} {f : Engine → Engine} (h : R s (mapEngine s f))
    (hl : (f s.engine).listeners = s.engine.listeners) : Leads Q R s (mapEngine s f) := by
  intro hs
  refine ⟨h, hs.1, ?_⟩
  show ∀ l ∈ (f s.engine).listeners, l.Keeps Q
  rw [hl]
  exact hs.2

/-! ### Scripts and calls -/

theorem run (hc : Conduct Q R) (ha : Safe Q R answer) (ticket : Nat) (script : Script)
    (hk : script.Keeps Q) (s : Service) : Leads Q R s (script.run answer ticket s).2 := by
  match script with
  | .finish o => exact hc.leads_refl s
  | .note entry rest =>
    rw [Script.run]
    exact hc.leads_trans (hc.leads_log rfl s) (hc.run ha ticket rest hk _)
  | .remember memory rest =>
    rw [Script.run]
    have hstep : Leads Q R s (s.remember ticket memory) := hc.leads_quiet rfl rfl fun h => h.1
    exact hc.leads_trans hstep (hc.run ha ticket rest hk _)
  | .ask request next =>
    rw [Script.Keeps] at hk
    have hanswer := ha request s hk.1.1 hk.1.2
    rw [Script.run_ask]
    split
    · exact hanswer
    · exact hc.leads_trans hanswer (hc.run ha ticket _ (hk.2 _) _)

theorem call (hc : Conduct Q R) (ha : Safe Q R answer) (ticket : Nat) {p : Plugin}
    (hp : p.Keeps Q) (c : Call) (s : Service) : Leads Q R s (s.call answer ticket p c).2 := by
  obtain ⟨info, config, memory, respond⟩ := p
  rw [Plugin.Keeps] at hp
  exact hc.leads_trans (hc.leads_log rfl s) (hc.run ha ticket _ (hp _ _) _)

theorem dispatchTo (hc : Conduct Q R) (ha : Safe Q R answer) (hook : Hook)
    (rs : List Registration) (hr : ∀ r ∈ rs, r.plugin.Keeps Q) (c : Context) (s : Service) :
    Leads Q R s (Host.dispatchTo answer hook rs c s).2 := by
  induction rs generalizing c s with
  | nil => exact hc.leads_refl s
  | cons r rs ih =>
    rw [Host.dispatchTo]
    exact hc.leads_trans (hc.call ha r.ticket (hr r List.mem_cons_self) _ s)
      (ih (fun r' h => hr r' (List.mem_cons_of_mem _ h)) _ _)

theorem dispatch (hc : Conduct Q R) (ha : Safe Q R answer) (hook : Hook) (c : Context)
    (s : Service) : Leads Q R s (s.dispatch answer hook c).2 := by
  intro hs
  exact hc.dispatchTo ha hook s.enabled (fun r h => hs.1 r (List.mem_filter.1 h).1) c s hs

theorem tellOne (hc : Conduct Q R) (ha : Safe Q R answer) {l : Listener} (hl : l.Keeps Q)
    (s : Service) : Leads Q R s (Service.tellOne answer l s).2 :=
  hc.leads_trans (hc.leads_log (e := .notified l.ticket s.engine) rfl s)
    (hc.run ha l.ticket _ (hl _) _)

theorem notify (hc : Conduct Q R) (ha : Safe Q R answer) (s : Service) :
    Leads Q R s (Service.notify answer s).2 :=
  fun hs => tellEach_frame hc.leads_refl (fun h h' => hc.leads_trans h h')
    (fun l hl => hc.tellOne ha (hs.2 l hl)) s hs

/-! ### Texts and locales -/

theorem addCatalog (hc : Conduct Q R) (ha : Safe Q R answer) {locale space : String} {c : Catalog}
    (hq : Q (.addCatalog locale space c)) (s : Service) :
    Leads Q R s (Service.addCatalog answer locale space c s) :=
  hc.leads_trans (leads_engine (hc.install s hq) rfl) (hc.notify ha _)

theorem setLocale (hc : Conduct Q R) (ha : Safe Q R answer) {locale : String}
    (hq : Q (.setLocale locale)) (s : Service) :
    Leads Q R s (Service.setLocale answer locale s) :=
  hc.leads_trans (hc.leads_trans (leads_engine (hc.relocate s hq) rfl)
    (hc.dispatch ha _ _ _)) (hc.notify ha _)

theorem missing (hc : Conduct Q R) (ha : Safe Q R answer) {c : Context} {space name : String}
    {count : Option Float} {s : Service} (placeholder : String)
    (hf : s.engine.findTemplate c.locale space name count = none) :
    Leads Q R s (Service.miss answer c space name placeholder s) := by
  intro hs
  obtain ⟨hr, ho⟩ := hc.dispatch ha .missing c s hs
  refine ⟨hc.miss placeholder hf hr, ho.1, ?_⟩
  show ∀ l ∈ Engine.listeners (Engine.recordMissing _ _ _ _ _), l.Keeps Q
  rw [Engine.recordMissing_listeners]
  exact ho.2

theorem finish (hc : Conduct Q R) (ha : Safe Q R answer) (c : Context) (template : String)
    (s : Service) : Leads Q R s (Service.finish answer c template s).2 :=
  hc.dispatch ha .after _ s

theorem phrase (hc : Conduct Q R) (ha : Safe Q R answer) (key : String) (args : Arguments)
    (s : Service) : Leads Q R s (Service.phrase answer key args s).2 := by
  have hbefore := hc.dispatch ha .before (contextFor s.engine key args) s
  unfold Service.phrase
  generalize s.dispatch answer .before (contextFor s.engine key args) = found at hbefore ⊢
  obtain ⟨c, s'⟩ := found
  dsimp only at hbefore ⊢
  split
  · exact hc.leads_trans hbefore (hc.finish ha _ _ _)
  · rename_i hf
    refine hc.leads_trans (hc.leads_trans hbefore ?_) (hc.finish ha _ _ _)
    exact hc.missing (c := { c with result := some (args.text?.getD key) }) ha _ hf

/-! ### The registry -/

theorem refuse (hc : Conduct Q R) : Safe Q R Host.refuse :=
  fun _ s _ _ => hc.leads_log rfl s

theorem register (hc : Conduct Q R) (ha : Safe Q R answer) {p : Plugin} (hp : p.Keeps Q)
    (config : Option PluginConfig) (s : Service) :
    Leads Q R s (s.register answer p config).2 := by
  cases ho : s.objection? p.info with
  | some e =>
    unfold Host.register
    rw [ho]
    exact hc.leads_refl s
  | none =>
    have hticket : Leads Q R s { s with tickets := s.tickets + 1 } :=
      hc.leads_quiet rfl rfl fun h => h.1
    have hcall := hc.leads_trans hticket
      (hc.call ha s.tickets hp (.init (config.getD p.defaultConfig).options) _)
    rcases Host.register_state answer ho config with he | he
    · rw [he]
      exact hcall
    · rw [he]
      refine hc.leads_trans hcall (hc.leads_quiet rfl rfl fun ho r hr => ?_)
      rcases List.mem_append.1 hr with hr | hr
      · exact ho.1 r hr
      · rw [List.mem_singleton.1 hr]
        exact hp

theorem unregister (hc : Conduct Q R) (ha : Safe Q R answer) (name : String) (s : Service) :
    Leads Q R s (s.unregister answer name).2 := by
  unfold Host.unregister
  split
  · exact hc.leads_refl s
  · rename_i r hr
    split
    · exact hc.leads_refl s
    · intro hs
      have hdrop : Leads Q R s { s with registry := s.registry.eraseP (·.name == name) } :=
        hc.leads_quiet rfl rfl fun h r hr => h.1 r (List.mem_of_mem_eraseP hr)
      have hkeeps : r.plugin.Keeps Q := hs.1 r (List.mem_of_find?_eq_some hr)
      exact hc.leads_trans hdrop (hc.call ha r.ticket hkeeps .destroy _) hs

theorem setEnabled (hc : Conduct Q R) (name : String) (enabled : Bool) (s : Service) :
    Leads Q R s (s.setEnabled name enabled).2 := by
  have hplugin : ∀ rs : List Registration, ∀ r ∈ Host.setEnabledIn name enabled rs,
      ∃ r' ∈ rs, r'.plugin = r.plugin := by
    intro rs
    induction rs with
    | nil => simp [Host.setEnabledIn]
    | cons r rs ih =>
      intro r' hr'
      rw [Host.setEnabledIn] at hr'
      split at hr'
      · rcases List.mem_cons.1 hr' with rfl | hr'
        · exact ⟨r, List.mem_cons_self, rfl⟩
        · exact ⟨r', List.mem_cons_of_mem _ hr', rfl⟩
      · rcases List.mem_cons.1 hr' with rfl | hr'
        · exact ⟨r', List.mem_cons_self, rfl⟩
        · obtain ⟨r'', hmem, he⟩ := ih r' hr'
          exact ⟨r'', List.mem_cons_of_mem _ hmem, he⟩
  refine hc.leads_quiet rfl rfl fun ho r hr => ?_
  obtain ⟨r', hmem, he⟩ := hplugin s.registry r hr
  rw [← he]
  exact ho.1 r' hmem

theorem clear (hc : Conduct Q R) (ha : Safe Q R answer) (s : Service) :
    Leads Q R s (s.clear answer) := by
  have each : ∀ (rs : List Registration), (∀ r ∈ rs, r.plugin.Keeps Q) → ∀ s : Service,
      Leads Q R s (rs.foldl (fun h r => h.destroy answer r) s) := by
    intro rs
    induction rs with
    | nil => exact fun _ s => hc.leads_refl s
    | cons r rs ih =>
      intro hr s
      rw [List.foldl_cons]
      exact hc.leads_trans (hc.call ha r.ticket (hr r List.mem_cons_self) .destroy s)
        (ih (fun r' h => hr r' (List.mem_cons_of_mem _ h)) _)
  intro hs
  have hempty : Leads Q R s { s with registry := [] } :=
    hc.leads_quiet rfl rfl fun _ r hr => by simp at hr
  exact hc.leads_trans hempty
    (each s.registry.reverse (fun r h => hs.1 r (List.mem_reverse.1 h)) _) hs

/-! ### Requests -/

theorem answerRegistry (hc : Conduct Q R) (ha : Safe Q R answer) {other : Handler Engine}
    (ho : Safe Q R other) : Safe Q R (Host.answerRegistry answer other) := by
  intro request s hq hk
  cases request with
  | register p config =>
    rw [Host.answerRegistry_register]
    exact hc.register ha hk config s
  | unregister name =>
    rw [Host.answerRegistry_unregister]
    exact hc.unregister ha name s
  | setEnabled name enabled => exact hc.setEnabled name enabled s
  | clear => exact hc.clear ha s
  | phrase key args => exact ho _ s hq hk
  | addCatalog locale space c => exact ho _ s hq hk
  | setLocale locale => exact ho _ s hq hk

theorem perform (hc : Conduct Q R) (ha : Safe Q R answer) : Safe Q R (Service.perform answer) := by
  intro request s hq hk
  cases request with
  | phrase key args => exact hc.phrase ha key args s
  | addCatalog locale space c => exact hc.addCatalog ha hq s
  | setLocale locale => exact hc.setLocale ha hq s
  | register p config => exact hc.refuse _ s hq hk
  | unregister name => exact hc.refuse _ s hq hk
  | setEnabled name enabled => exact hc.refuse _ s hq hk
  | clear => exact hc.refuse _ s hq hk

/-- Requests lead along the relation, whatever they are nested in. -/
theorem answer_safe (hc : Conduct Q R) (depth : Nat) : Safe Q R (Service.answer depth) := by
  induction depth with
  | zero => exact hc.refuse
  | succ depth ih => exact hc.answerRegistry ih (hc.perform ih)

theorem registerAll (hc : Conduct Q R) (ha : Safe Q R answer)
    (ps : List (Plugin × Option PluginConfig)) (hp : ∀ p ∈ ps, p.1.Keeps Q) (s : Service) :
    Leads Q R s (Service.registerAll answer ps s).2 := by
  induction ps generalizing s with
  | nil => exact hc.leads_refl s
  | cons p ps ih =>
    have hfirst := hc.register ha (hp p List.mem_cons_self) p.2 s
    rcases Service.registerAll_state answer p ps s with he | he
    · rw [he]
      exact hfirst
    · rw [he]
      exact hc.leads_trans hfirst (ih (fun q hq => hp q (List.mem_cons_of_mem _ hq)) _)

theorem create (hc : Conduct Q R) (p : ServicePlan) (hp : ∀ q ∈ p.plugins, q.1.Keeps Q) :
    Leads Q R (blank p) (Service.create p).2 := by
  rcases Service.create_state p with he | he
  · rw [he]
    exact hc.leads_refl _
  · rw [he]
    exact hc.registerAll hc.refuse p.plugins hp (blank p)

end Conduct

end Service

end Phrasebook
