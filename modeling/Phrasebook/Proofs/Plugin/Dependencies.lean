import Phrasebook.Proofs.Plugin.Farewell

/-!
# What registered plugins depend on

A plugin is only set up while everything that it depends on is registered. What it asks for then may
remove plugins, and nobody looks again before it is added. `Accounts` says that no name is lost
unless its plugin is called for the last time, so a dependency that is missing afterwards has left
meanwhile, `registered_dependencies`. It can indeed be missing, `registered_without_dependency`.
-/

namespace Phrasebook

variable {ε : Type}

/-- The names of the plugins that were called for the last time in these events. -/
def departures (events : List Event) : List String :=
  (events.filterMap Event.destroyed?).map Prod.snd

theorem departures_append (a b : List Event) :
    departures (a ++ b) = departures a ++ departures b := by
  simp [departures]

namespace Host

variable {answer : Handler ε} {h h' h'' : Host ε} {r : Registration} {d : String}

/-- The names of the plugins that were called for the last time from one state to the other. -/
def lost (h h' : Host ε) : List String :=
  departures (h'.journal.drop h.journal.length)

theorem lost_of_journal {new : List Event} (hj : h'.journal = h.journal ++ new) :
    h.lost h' = departures new := by
  rw [lost, hj, List.drop_left]

/-- A plugin of this name was called for the last time after the other one was set up. -/
def LostSince (h : Host ε) (r : Registration) (name : String) : Prop :=
  ∃ past options since,
    h.journal = past ++ .called r.ticket r.name (.init options) :: since ∧ name ∈ departures since

theorem LostSince.grow (hl : h.LostSince r d) {new : List Event}
    (hj : h'.journal = h.journal ++ new) : h'.LostSince r d := by
  obtain ⟨past, options, since, hjournal, hd⟩ := hl
  refine ⟨past, options, since ++ new, ?_, ?_⟩
  · rw [hj, hjournal, List.append_assoc, List.cons_append]
  · rw [departures_append]
    exact List.mem_append_left _ hd

/-- What registered plugins depend on is registered, or has left since they were set up. -/
def Founded (h : Host ε) : Prop :=
  ∀ r ∈ h.registry, ∀ d ∈ r.dependencies, h.has d = true ∨ h.LostSince r d

/-- Events were added, and no name was lost without one of them. -/
def Remains (h : Host ε) (new : List Event) (h' : Host ε) : Prop :=
  h'.journal = h.journal ++ new ∧
    ∀ name, h.has name = true → h'.has name = true ∨ name ∈ departures new

theorem Remains.trans {new more : List Event} (hl : h.Remains new h') (hr : h'.Remains more h'') :
    h.Remains (new ++ more) h'' := by
  refine ⟨by rw [hr.1, hl.1, List.append_assoc], fun name hname => ?_⟩
  rw [departures_append, List.mem_append]
  rcases hl.2 name hname with hname | hname
  · exact (hr.2 name hname).imp_right .inr
  · exact .inr (.inl hname)

/-- No name is lost unnoticed, and what registered plugins depend on stays accounted for. -/
structure Accounts (h h' : Host ε) : Prop where
  remains : ∃ new, h.Remains new h'
  founded : h.Founded → h'.Founded

theorem Accounts.trans (hl : Accounts h h') (hr : Accounts h' h'') : Accounts h h'' := by
  obtain ⟨new, hnew⟩ := hl.remains
  obtain ⟨more, hmore⟩ := hr.remains
  exact ⟨⟨new ++ more, hnew.trans hmore⟩, fun hf => hr.founded (hl.founded hf)⟩

/-- A plugin that is registered afterwards was so before, with its dependencies still there, or is
accounted for by itself. -/
theorem Remains.founded {new : List Event} (hr : h.Remains new h')
    (hkept : ∀ r' ∈ h'.registry, (∀ d ∈ r'.dependencies, h'.has d = true ∨ h'.LostSince r' d) ∨
      ∃ r ∈ h.registry, r.label = r'.label ∧ r.dependencies = r'.dependencies ∧
        ∀ d ∈ r.dependencies, h.has d = true → h'.has d = true)
    (hf : h.Founded) : h'.Founded := by
  intro r' hmem d hd
  rcases hkept r' hmem with hself | ⟨r, hold, hlabel, hneeds, hstay⟩
  · exact hself d hd
  · rw [← hneeds] at hd
    rcases hf r hold d hd with hhas | hlost
    · exact .inl (hstay d hd hhas)
    · obtain ⟨hticket, hname⟩ := Prod.mk.inj hlabel
      have hsame : h'.LostSince r d := hlost.grow hr.1
      unfold LostSince at hsame ⊢
      rw [hticket, hname] at hsame
      exact .inr hsame

theorem has_congr (hr : h'.registry = h.registry) (name : String) : h'.has name = h.has name := by
  unfold has
  rw [hr]

theorem remains_of_registry (hr : h'.registry = h.registry) {new : List Event}
    (hj : h'.journal = h.journal ++ new) : h.Remains new h' := by
  refine ⟨hj, fun name hname => .inl ?_⟩
  rw [has_congr hr]
  exact hname

theorem Accounts.of_registry (hr : h'.registry = h.registry) {new : List Event}
    (hj : h'.journal = h.journal ++ new) : Accounts h h' := by
  have hremains := remains_of_registry hr hj
  refine ⟨⟨new, hremains⟩, hremains.founded fun r hmem => .inr ⟨r, hr ▸ hmem, rfl, rfl, ?_⟩⟩
  intro d _ hd
  rw [has_congr hr]
  exact hd

theorem Accounts.same (hr : h'.registry = h.registry) (hj : h'.journal = h.journal) :
    Accounts h h' :=
  .of_registry hr (hj.trans (List.append_nil _).symm)

theorem Accounts.refl (h : Host ε) : Accounts h h :=
  .same rfl rfl

theorem Accounts.log (h : Host ε) (e : Event) : Accounts h (h.log e) :=
  .of_registry rfl rfl

/-! ### Calls -/

def Accountable (answer : Handler ε) : Prop :=
  ∀ request h, Accounts h (answer request h).2

theorem Accountable.script (ha : Accountable answer) (ticket : Nat) (script : Script)
    (h : Host ε) : Accounts h (script.run answer ticket h).2 := by
  refine script.run_frame Accounts.refl Accounts.trans (fun entry h => .log h _)
    (fun memory h => ?_) (fun request h _ => ha request h) script.keeps_true h
  exact .same rfl rfl

theorem Accountable.call (ha : Accountable answer) (ticket : Nat) (p : Plugin) (c : Call)
    (h : Host ε) : Accounts h (h.call answer ticket p c).2 :=
  (Accounts.log h _).trans (ha.script ticket _ _)

theorem Accountable.dispatchTo (ha : Accountable answer) (hook : Hook) (rs : List Registration)
    (c : Context) (h : Host ε) : Accounts h (Host.dispatchTo answer hook rs c h).2 := by
  induction rs generalizing c h with
  | nil => exact .refl h
  | cons r rs ih => exact (ha.call r.ticket r.plugin _ h).trans (ih _ _)

/-! ### The registry -/

/-- While a plugin is set up the names that were there remain, or leave after it was called. -/
theorem Accountable.setUp (ha : Accountable answer) (p : Plugin) (options : Vars) (h : Host ε) :
    let h' := (({ h with tickets := h.tickets + 1 } : Host ε).call answer h.tickets p
      (.init options)).2
    ∃ since, h.Remains (.called h.tickets p.info.name (.init options) :: since) h' ∧
      ∀ name, h.has name = true → h'.has name = true ∨ name ∈ departures since := by
  intro h'
  let called : Host ε := ({ h with tickets := h.tickets + 1 } : Host ε).log
    (.called h.tickets p.info.name (.init options))
  have hregistry : called.registry = h.registry := rfl
  have hcalled : h.Remains [.called h.tickets p.info.name (.init options)] called :=
    remains_of_registry hregistry rfl
  obtain ⟨since, hsince⟩ := (ha.script h.tickets _ called).remains
  exact ⟨since, hcalled.trans hsince, fun name hname => hsince.2 name hname⟩

theorem has_append {rs : List Registration} {name : String}
    (hr : h'.registry = h.registry ++ rs) (hh : h.has name = true) : h'.has name = true := by
  rw [has, hr, List.any_append, Bool.or_eq_true]
  exact .inl hh

/-- When a plugin is registered, all that it depends on was registered when it asked, and is still or
has left while it was set up. -/
theorem Accountable.registered (ha : Accountable answer) {p : Plugin}
    (ho : h.objection? p.info = none) (config : PluginConfig) :
    let started := (({ h with tickets := h.tickets + 1 } : Host ε).call answer h.tickets p
      (.init config.options)).2
    let h' : Host ε := { started with registry := started.registry ++ [⟨h.tickets, p, config⟩] }
    Accounts h started ∧ Accounts h h' ∧
      ∀ d ∈ p.info.dependencies, h'.has d = true ∨ d ∈ h.lost h' := by
  intro started h'
  have hbegun : Accounts h { h with tickets := h.tickets + 1 } := .same rfl rfl
  have hstarted : Accounts h started := hbegun.trans (ha.call _ p _ _)
  obtain ⟨since, hremains, hstay⟩ := ha.setUp p config.options h
  have hneeds : ∀ d ∈ p.info.dependencies, h'.has d = true ∨ d ∈ departures since := by
    intro d hd
    have hthere : h.has d = true := has_iff.2 ((objection?_eq_none ho).2 d hd)
    exact (hstay d hthere).imp_left (has_append rfl)
  have hadded : Accounts started h' := by
    have hgrown : started.Remains [] h' :=
      ⟨(List.append_nil _).symm, fun name hname => .inl (has_append rfl hname)⟩
    refine ⟨⟨[], hgrown⟩, hgrown.founded fun r hmem => ?_⟩
    rcases List.mem_append.1 hmem with hold | hnew
    · exact .inr ⟨r, hold, rfl, rfl, fun d _ hd => has_append rfl hd⟩
    · obtain rfl := List.mem_singleton.1 hnew
      refine .inl fun d hd => (hneeds d hd).imp_right fun hlost => ?_
      exact ⟨h.journal, config.options, since, hremains.1, hlost⟩
  have hlost : h.lost h' =
      departures (.called h.tickets p.info.name (.init config.options) :: since) :=
    lost_of_journal hremains.1
  refine ⟨hstarted, hstarted.trans hadded, fun d hd => ?_⟩
  rw [hlost]
  exact hneeds d hd

theorem Accountable.register (ha : Accountable answer) (p : Plugin) (config : Option PluginConfig)
    (h : Host ε) : Accounts h (h.register answer p config).2 := by
  cases ho : h.objection? p.info with
  | some e =>
    unfold Host.register
    rw [ho]
    exact .refl h
  | none =>
    obtain ⟨hstarted, hadded, -⟩ := ha.registered ho (config.getD p.defaultConfig)
    rcases register_state answer ho config with he | he
    · rw [he]
      exact hstarted
    · rw [he]
      exact hadded

theorem register_eq_ok {p : Plugin} {config : Option PluginConfig}
    (hok : h.register answer p config = (.ok (), h')) :
    h.objection? p.info = none ∧
      let started := (({ h with tickets := h.tickets + 1 } : Host ε).call answer h.tickets p
        (.init (config.getD p.defaultConfig).options)).2
      h' = { started with
        registry := started.registry ++ [⟨h.tickets, p, config.getD p.defaultConfig⟩] } := by
  unfold Host.register at hok
  split at hok
  · simp at hok
  · rename_i ho
    refine ⟨ho, ?_⟩
    dsimp only at hok ⊢
    split at hok
    · simp at hok
    · simp at hok
    · rename_i he
      rw [he]
      split at hok
      · simp at hok
      · exact (Prod.mk.inj hok).2.symm

theorem has_of_mem (hmem : r ∈ h.registry) : h.has r.name = true :=
  has_iff.2 (List.mem_map_of_mem hmem)

/-- A plugin may leave that no other one depends on. -/
theorem Accounts.departed {a b : List Registration} (hold : h.registry = a ++ r :: b)
    (hleft : h'.registry = a ++ b)
    (hj : h'.journal = h.journal ++ [.called r.ticket r.name .destroy])
    (hunused : ∀ r' ∈ a ++ b, r.name ∉ r'.dependencies) : Accounts h h' := by
  have hothers : ∀ name, name ≠ r.name → h.has name = true → h'.has name = true := by
    intro name hne hname
    rw [has_iff, hold, List.map_append, List.map_cons] at hname
    rw [has_iff, hleft, List.map_append]
    simpa [hne] using hname
  have hremains : h.Remains [.called r.ticket r.name .destroy] h' := by
    refine ⟨hj, fun name hname => ?_⟩
    by_cases hne : name = r.name
    · exact .inr (by simp [departures, Event.destroyed?, hne])
    · exact .inl (hothers name hne hname)
  refine ⟨⟨_, hremains⟩, hremains.founded fun r' hmem => .inr ⟨r', ?_, rfl, rfl, fun d hd => ?_⟩⟩
  · rw [hleft] at hmem
    rw [hold]
    exact List.mem_append.2 ((List.mem_append.1 hmem).imp_right (List.mem_cons_of_mem r))
  · refine hothers d ?_
    rintro rfl
    exact hunused r' (hleft ▸ hmem) hd

theorem Accountable.unregister (ha : Accountable answer) (name : String) (h : Host ε) :
    Accounts h (h.unregister answer name).2 := by
  unfold Host.unregister
  cases hfind : h.find? name with
  | none => exact .refl h
  | some r =>
    obtain ⟨a, b, rfl, hsplit, herase⟩ := find?_split hfind
    dsimp only
    split
    · exact .refl h
    · rename_i hnone
      let left : Host ε := { h with registry := h.registry.eraseP (·.name == r.name) }
      let called := left.log (.called r.ticket r.name .destroy)
      have hunused : ∀ r' ∈ a ++ b, r.name ∉ r'.dependencies := by
        intro r' hmem hd
        rw [← herase] at hmem
        have hno := List.find?_eq_none.1 hnone r' (List.mem_of_mem_eraseP hmem)
        exact hno (List.contains_iff_mem.2 hd)
      have hcalled : Accounts h called := .departed hsplit herase rfl hunused
      exact hcalled.trans (ha.script r.ticket _ called)

theorem mem_setEnabledIn {name : String} {enabled : Bool} {rs : List Registration}
    (hmem : r ∈ setEnabledIn name enabled rs) :
    ∃ r' ∈ rs, r'.label = r.label ∧ r'.dependencies = r.dependencies := by
  induction rs with
  | nil => simp [setEnabledIn] at hmem
  | cons r' rs ih =>
    rw [setEnabledIn] at hmem
    split at hmem
    · rcases List.mem_cons.1 hmem with rfl | hmem
      · exact ⟨r', List.mem_cons_self, rfl, rfl⟩
      · exact ⟨r, List.mem_cons_of_mem _ hmem, rfl, rfl⟩
    · rcases List.mem_cons.1 hmem with rfl | hmem
      · exact ⟨r, List.mem_cons_self, rfl, rfl⟩
      · obtain ⟨r'', hold, hsame⟩ := ih hmem
        exact ⟨r'', List.mem_cons_of_mem _ hold, hsame⟩

theorem Accounts.setEnabled (name : String) (enabled : Bool) (h : Host ε) :
    Accounts h (h.setEnabled name enabled).2 := by
  have hnames : ∀ d, h.has d = true → (h.setEnabled name enabled).2.has d = true := by
    intro d hd
    obtain ⟨r, hmem, hname⟩ := List.mem_map.1 (has_iff.1 hd)
    have hlabel : r.label ∈ (setEnabledIn name enabled h.registry).map Registration.label := by
      rw [(setEnabledIn_same name enabled h.registry).1]
      exact List.mem_map_of_mem hmem
    obtain ⟨r', hmem', hlabel⟩ := List.mem_map.1 hlabel
    rw [← hname, ← (Prod.mk.inj hlabel).2]
    exact has_of_mem hmem'
  have hremains : h.Remains [] (h.setEnabled name enabled).2 :=
    ⟨(List.append_nil _).symm, fun d hd => .inl (hnames d hd)⟩
  refine ⟨⟨[], hremains⟩, hremains.founded fun r hmem => .inr ?_⟩
  obtain ⟨r', hold, hlabel, hneeds⟩ := mem_setEnabledIn hmem
  exact ⟨r', hold, hlabel, hneeds, fun d _ hd => hnames d hd⟩

/-- Those of the registry of `h` who are still to be called for the last time are `rs`: they are not
registered any more, but not yet in the journal. -/
structure Leaving (h : Host ε) (rs : List Registration) (h' : Host ε) : Prop where
  names : ∃ new, h'.journal = h.journal ++ new ∧ ∀ name, h.has name = true →
    h'.has name = true ∨ name ∈ departures new ∨ name ∈ rs.map Registration.name
  founded : h.Founded → h'.Founded

theorem Leaving.destroy (ha : Accountable answer) {rs : List Registration}
    (hl : Leaving h (r :: rs) h') : Leaving h rs (h'.destroy answer r) := by
  obtain ⟨new, hjournal, hnames⟩ := hl.names
  have hcall := ha.call r.ticket r.plugin .destroy h'
  let called := h'.log (.called r.ticket r.name .destroy)
  obtain ⟨more, hmore⟩ := (ha.script r.ticket
    (r.plugin.respond (called.memory r.ticket r.plugin.memory) .destroy) called).remains
  refine ⟨⟨new ++ .called r.ticket r.name .destroy :: more, ?_, fun name hname => ?_⟩,
    fun hfounded => hcall.founded (hl.founded hfounded)⟩
  · have hcalled : called.journal = h.journal ++ (new ++ [.called r.ticket r.name .destroy]) := by
      rw [← List.append_assoc, ← hjournal]
      rfl
    have hall := hmore.1
    rw [hcalled, List.append_assoc, List.append_assoc] at hall
    exact hall
  · rw [departures_append, List.mem_append]
    have hdeparted : ∀ x ∈ departures more,
        x ∈ departures (.called r.ticket r.name .destroy :: more) :=
      fun x hx => List.mem_cons_of_mem _ hx
    rcases hnames name hname with hthere | hgone | hnext
    · exact (hmore.2 name hthere).imp_right fun hx => .inl (.inr (hdeparted name hx))
    · exact .inr (.inl (.inl hgone))
    · rcases List.mem_cons.1 hnext with rfl | hnext
      · exact .inr (.inl (.inr List.mem_cons_self))
      · exact .inr (.inr hnext)

theorem Leaving.accounts (ha : Accountable answer) {rs : List Registration}
    (hl : Leaving h rs h') : Accounts h (rs.foldl (fun h r => h.destroy answer r) h') := by
  induction rs generalizing h' with
  | nil =>
    obtain ⟨new, hjournal, hnames⟩ := hl.names
    exact ⟨⟨new, hjournal, fun name hname => by simpa using hnames name hname⟩, hl.founded⟩
  | cons r rs ih => exact ih (hl.destroy ha)

theorem Accountable.clear (ha : Accountable answer) (h : Host ε) :
    Accounts h (h.clear answer) := by
  have hbegun : Leaving h h.registry.reverse { h with registry := [] } := by
    refine ⟨⟨[], (List.append_nil _).symm, fun name hname => ?_⟩,
      fun _ r hmem => absurd hmem List.not_mem_nil⟩
    rw [List.map_reverse, List.mem_reverse]
    exact .inr (.inr (has_iff.1 hname))
  exact hbegun.accounts ha

theorem Accountable.answerRegistry (ha : Accountable answer) {other : Handler ε}
    (ho : Accountable other) : Accountable (Host.answerRegistry answer other) := by
  intro request h
  cases request with
  | register p config =>
    rw [answerRegistry_register]
    exact ha.register p config h
  | unregister name =>
    rw [answerRegistry_unregister]
    exact ha.unregister name h
  | setEnabled name enabled => exact .setEnabled name enabled h
  | clear => exact ha.clear h
  | phrase key args => exact ho _ h
  | addCatalog locale space c => exact ho _ h
  | setLocale locale => exact ho _ h

theorem accountable_refuse : Accountable (ε := ε) Host.refuse :=
  fun _ h => .log h _

/-! ### Phrase books -/

theorem Accountable.notify {answer : Handler Engine} (ha : Accountable answer) (s : Service) :
    Accounts s (Service.notify answer s).2 :=
  Service.tellEach_frame Accounts.refl Accounts.trans
    (fun l _ s => (Accounts.log s _).trans (ha.script l.ticket _ _)) s

theorem Accounts.mapEngine (s : Service) (f : Engine → Engine) :
    Accounts s (Service.mapEngine s f) :=
  .same rfl rfl

theorem Accountable.phrase {answer : Handler Engine} (ha : Accountable answer) (key : String)
    (args : Arguments) (s : Service) : Accounts s (Service.phrase answer key args s).2 := by
  have hbefore : Accounts s (s.dispatch answer .before (Service.contextFor s.engine key args)).2 :=
    ha.dispatchTo .before s.enabled _ s
  unfold Service.phrase
  generalize s.dispatch answer .before (Service.contextFor s.engine key args) = found at hbefore ⊢
  obtain ⟨c, u⟩ := found
  dsimp only at hbefore ⊢
  split
  · exact hbefore.trans (ha.dispatchTo .after _ _ u)
  · have hmissing := ha.dispatchTo .missing u.enabled
      { c with result := some (args.text?.getD key) } u
    exact ((hbefore.trans hmissing).trans (.mapEngine _ _)).trans (ha.dispatchTo .after _ _ _)

theorem Accountable.perform {answer : Handler Engine} (ha : Accountable answer) :
    Accountable (Service.perform answer) := by
  intro request s
  cases request with
  | phrase key args => exact ha.phrase key args s
  | addCatalog l n c => exact (Accounts.mapEngine s _).trans (ha.notify _)
  | setLocale locale =>
    exact ((Accounts.mapEngine s _).trans (ha.dispatchTo _ _ _ _)).trans (ha.notify _)
  | register p config => exact accountable_refuse _ s
  | unregister name => exact accountable_refuse _ s
  | setEnabled name enabled => exact accountable_refuse _ s
  | clear => exact accountable_refuse _ s

/-! ### Runs -/

theorem Accountable.use (ha : Accountable answer) (u : Use) (h : Host ε) :
    Accounts h (h.use answer u) := by
  cases u with
  | dispatch hook c => exact ha.dispatchTo hook h.enabled c h
  | change c =>
    cases c with
    | register p config => exact ha.register p config h
    | unregister name => exact ha.unregister name h
    | setEnabled name enabled => exact .setEnabled name enabled h
    | clear => exact ha.clear h

theorem Accountable.uses (ha : Accountable answer) (us : List Use) (h : Host ε) :
    Accounts h (afterUses answer us h) := by
  induction us generalizing h with
  | nil => exact .refl h
  | cons u us ih => exact (ha.use u h).trans (ih _)

/-- What holds of dependencies in hosts that answer requests in this way. -/
structure Grounds (answer : Handler ε) : Prop where
  /-- What a plugin depends on was registered when it was accepted, and is so when it has been added
  unless it left while the plugin was set up. -/
  register : ∀ {h h' : Host ε} {p : Plugin} {config : Option PluginConfig},
    h.register answer p config = (.ok (), h') → ∀ d ∈ p.info.dependencies,
      h.has d = true ∧ (h'.has d = true ∨ d ∈ h.lost h')
  /-- In every history what a registered plugin depends on is registered unless it left after the
  plugin was set up. -/
  history : ∀ (us : List Use) (engine : ε), (afterUses answer us { engine }).Founded

theorem grounds_of_accountable (ha : Accountable answer) : Grounds answer where
  register := by
    intro h h' p config hok d hd
    obtain ⟨ho, rfl⟩ := register_eq_ok hok
    exact ⟨has_iff.2 ((objection?_eq_none ho).2 d hd), (ha.registered ho _).2.2 d hd⟩
  history := by
    intro us engine
    exact (ha.uses us { engine }).founded fun r hmem => absurd hmem List.not_mem_nil

theorem accountable_manager (depth : Nat) : Accountable (Manager.answer depth) := by
  induction depth with
  | zero => exact accountable_refuse
  | succ depth ih => exact ih.answerRegistry accountable_refuse

theorem accountable_service (depth : Nat) : Accountable (Service.answer depth) := by
  induction depth with
  | zero => exact accountable_refuse
  | succ depth ih => exact ih.answerRegistry ih.perform

end Host

/-- Whatever plugins ask for when they are set up, destroyed or called, and however deeply: a name
that a registered plugin depends on is registered, or the plugin of this name left after the one that
needs it was called to be set up. -/
theorem registered_dependencies (depth : Nat) :
    Host.Grounds (Manager.answer depth) ∧ Host.Grounds (Service.answer depth) :=
  ⟨Host.grounds_of_accountable (Host.accountable_manager depth),
    Host.grounds_of_accountable (Host.accountable_service depth)⟩

namespace Manager

/-- A plugin that depends on another one and has it unregistered when it is set up. -/
def ungrateful (name other : String) : Plugin where
  info := { name, kind := .middleware, dependencies := [other] }
  defaultConfig := {}
  memory := ""
  respond _ call :=
    match call with
    | .init _ => .ask (.unregister other) fun _ => .finish .nothing
    | _ => .finish .nothing

/-- A host with one plugin, which nobody needs yet. -/
def founded : Manager :=
  Host.afterUses (Manager.answer 1)
    [.change (.register (.plain { name := "a", kind := .middleware }) none)] { engine := () }

def unfounded : Manager :=
  (founded.register (Manager.answer 1) (ungrateful "b" "a") none).2

/-- The plugin is accepted and registered, and what it depends on is not there any more. -/
theorem registered_without_dependency :
    (founded.register (Manager.answer 1) (ungrateful "b" "a") none).1 = .ok () ∧
      founded.has "a" = true ∧ unfounded.has "b" = true ∧ unfounded.has "a" = false :=
  ⟨rfl, rfl, rfl, rfl⟩

/-- The plugin that it depends on left while it was set up. -/
theorem registered_dependencies_ungrateful :
    founded.register (Manager.answer 1) (ungrateful "b" "a") none = (.ok (), unfounded) ∧
      "a" ∈ founded.lost unfounded := by
  have hok : founded.register (Manager.answer 1) (ungrateful "b" "a") none =
      (.ok (), unfounded) := rfl
  have hgone : unfounded.has "a" = false := rfl
  obtain ⟨-, hleft⟩ := (registered_dependencies 1).1.register hok "a" List.mem_cons_self
  exact ⟨hok, hleft.resolve_left (by rw [hgone]; exact Bool.false_ne_true)⟩

end Manager

end Phrasebook
