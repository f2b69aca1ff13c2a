import Phrasebook.Proofs.Plugin.Registry

/-!
# Plugins that are gone

A plugin that is called for the last time has left the registry, and its ticket is not given to
another. `Follows` says that whatever begins then, with all that plugins ask for meanwhile, does not
reach it any more. A dispatch that has begun before goes on to call those who were enabled at its
start, `destroyed_within_dispatch`.
-/

namespace Phrasebook

variable {ε : Type}

namespace Event

def callee? : Event → Option Nat
  | .called ticket _ _ => some ticket
  | _ => none

theorem destroyed?_eq_some {e : Event} {x : Nat × String} (h : e.destroyed? = some x) :
    e = .called x.1 x.2 .destroy := by
  unfold destroyed? at h
  split at h
  · obtain rfl := Option.some.inj h
    rfl
  · simp at h

end Event

/-- What is done with a host: a call that changes its registry, or one that goes to its plugins. -/
inductive Use where
  | change (c : RegistryCall)
  | dispatch (hook : Hook) (c : Context)

namespace Host

def use (answer : Handler ε) (h : Host ε) : Use → Host ε
  | .change c => (c.carryOut answer h).2
  | .dispatch hook c => (h.dispatch answer hook c).2

def afterUses (answer : Handler ε) (us : List Use) (h : Host ε) : Host ε :=
  us.foldl (use answer) h

/-- A plugin with this ticket is registered or may yet be. -/
def Within (h : Host ε) (ticket : Nat) : Prop :=
  ticket ∈ h.registry.map (·.ticket) ∨ h.tickets ≤ ticket

/-- No registered plugin was called for the last time, and none will be that was. -/
structure Proper (h : Host ε) : Prop where
  distinct : (h.registry.map (·.ticket)).Nodup
  issued : ∀ r ∈ h.registry, r.ticket < h.tickets
  gone : ∀ x ∈ h.destroyed, ¬ h.Within x.1

/-- Only plugins within reach were called, and no others have come within reach. -/
structure Follows (h h' : Host ε) : Prop where
  within : ∀ ticket, h'.Within ticket → h.Within ticket
  journal : ∃ new, h'.journal = h.journal ++ new ∧
    ∀ e ∈ new, ∀ ticket, e.callee? = some ticket → h.Within ticket
  proper : h.Proper → h'.Proper

variable {answer : Handler ε} {h h' h'' : Host ε}

theorem Follows.refl (h : Host ε) : Follows h h :=
  ⟨fun _ ht => ht, ⟨[], (List.append_nil _).symm, by simp⟩, fun hp => hp⟩

theorem Follows.trans (hl : Follows h h') (hr : Follows h' h'') : Follows h h'' := by
  obtain ⟨new, hnew, hwithin⟩ := hl.journal
  obtain ⟨more, hmore, hwithin'⟩ := hr.journal
  refine ⟨fun t ht => hl.within t (hr.within t ht), ⟨new ++ more, ?_, ?_⟩,
    fun hp => hr.proper (hl.proper hp)⟩
  · rw [hmore, hnew, List.append_assoc]
  · intro e he ticket hticket
    rcases List.mem_append.1 he with he | he
    · exact hwithin e he ticket hticket
    · exact hl.within ticket (hwithin' e he ticket hticket)

theorem Proper.of_registry (hp : h.Proper) (hd : h'.destroyed = h.destroyed)
    (hr : (h'.registry.map (·.ticket)).Sublist (h.registry.map (·.ticket)))
    (ht : h.tickets ≤ h'.tickets) : h'.Proper where
  distinct := hp.distinct.sublist hr
  issued := by
    intro r hmem
    obtain ⟨r', hmem', hticket⟩ := List.mem_map.1 (hr.subset (List.mem_map_of_mem hmem))
    have hold := hp.issued r' hmem'
    omega
  gone := by
    intro x hx hwithin
    rw [hd] at hx
    apply hp.gone x hx
    rcases hwithin with hmem | hle
    · exact .inl (hr.subset hmem)
    · exact .inr (Nat.le_trans ht hle)

/-- Plugins may have left the registry, and nobody was called. -/
theorem Follows.of_registry
    (hr : (h'.registry.map (·.ticket)).Sublist (h.registry.map (·.ticket)))
    (ht : h.tickets ≤ h'.tickets) (hj : h'.journal = h.journal) : Follows h h' := by
  refine ⟨fun t hw => ?_, ⟨[], hj.trans (List.append_nil _).symm, by simp⟩, fun hp => ?_⟩
  · rcases hw with hmem | hle
    · exact .inl (hr.subset hmem)
    · exact .inr (Nat.le_trans ht hle)
  · refine hp.of_registry ?_ hr ht
    unfold destroyed
    rw [hj]

/-! ### Calls -/

/-- An event is logged that calls a plugin within reach of `h`, or none. -/
theorem Follows.log (hf : Follows h h') {e : Event}
    (he : ∀ ticket, e.callee? = some ticket → h.Within ticket)
    (hp : h.Proper → ∀ x, e.destroyed? = some x → ¬ h'.Within x.1) : Follows h (h'.log e) := by
  obtain ⟨new, hnew, hwithin⟩ := hf.journal
  refine ⟨hf.within, ⟨new ++ [e], ?_, ?_⟩, fun hproper => ?_⟩
  · rw [← List.append_assoc, ← hnew]
    rfl
  · intro e' he' ticket hticket
    rcases List.mem_append.1 he' with he' | he'
    · exact hwithin e' he' ticket hticket
    · rw [List.mem_singleton.1 he'] at hticket
      exact he ticket hticket
  · have hproper' := hf.proper hproper
    refine ⟨hproper'.distinct, hproper'.issued, fun x hx => ?_⟩
    rw [destroyed_log, List.mem_append, Option.mem_toList] at hx
    exact hx.elim (hproper'.gone x) (hp hproper x)

theorem Follows.note (h : Host ε) {e : Event} (he : e.callee? = none) : Follows h (h.log e) := by
  refine (Follows.refl h).log (by simp [he]) fun _ x hx => ?_
  rw [Event.destroyed?_eq_some hx] at he
  simp [Event.callee?] at he

/-- The handler reaches only what is within reach when it is asked. -/
def Contained (answer : Handler ε) : Prop :=
  ∀ request h, Follows h (answer request h).2

theorem Contained.script (ha : Contained answer) (ticket : Nat) (script : Script) (h : Host ε) :
    Follows h (script.run answer ticket h).2 := by
  refine script.run_frame Follows.refl Follows.trans (fun entry h => ?_) (fun memory h => ?_)
    (fun request h _ => ha request h) script.keeps_true h
  · exact .note h rfl
  · exact .of_registry (List.Sublist.refl _) (Nat.le_refl _) rfl

theorem Contained.call (ha : Contained answer) (hf : Follows h h') {ticket : Nat}
    (ht : h.Within ticket) (p : Plugin) (c : Call)
    (hc : h.Proper → c = .destroy → ¬ h'.Within ticket) :
    Follows h (h'.call answer ticket p c).2 := by
  have hlog : Follows h (h'.log (.called ticket p.info.name c)) := by
    refine hf.log (fun t hcallee => ?_) fun hp x hx => ?_
    · obtain rfl := Option.some.inj hcallee
      exact ht
    · obtain ⟨rfl, -, rfl⟩ := Event.called.inj (Event.destroyed?_eq_some hx)
      exact hc hp rfl
  exact hlog.trans (ha.script ticket _ _)

theorem Hook.call_ne_destroy (hook : Hook) (c : Context) : hook.call c ≠ .destroy := by
  cases hook <;> simp [Hook.call]

theorem Contained.dispatch (ha : Contained answer) (hook : Hook) (c : Context) (h : Host ε) :
    Follows h (h.dispatch answer hook c).2 := by
  have each : ∀ (rs : List Registration), (∀ r ∈ rs, h.Within r.ticket) → ∀ c h',
      Follows h h' → Follows h (dispatchTo answer hook rs c h').2 := by
    intro rs
    induction rs with
    | nil => exact fun _ _ _ hf => hf
    | cons r rs ih =>
      intro hr c h' hf
      refine ih (fun r' hr' => hr r' (List.mem_cons_of_mem _ hr')) _ _ ?_
      exact ha.call hf (hr r List.mem_cons_self) _ _
        fun _ hd => absurd hd (Hook.call_ne_destroy hook c)
  refine each h.enabled (fun r hr => ?_) c h (.refl h)
  exact .inl (List.mem_map_of_mem (List.mem_filter.1 hr).1)

/-! ### The registry -/

/-- Whoever is called for the last time was within reach. -/
theorem Follows.destroyed (hf : Follows h h') {x : Nat × String} (hx : x ∈ h'.destroyed) :
    x ∈ h.destroyed ∨ h.Within x.1 := by
  obtain ⟨new, hnew, hwithin⟩ := hf.journal
  unfold Host.destroyed at hx ⊢
  rw [hnew, List.filterMap_append, List.mem_append] at hx
  refine hx.imp_right fun hx => ?_
  obtain ⟨e, he, hdestroyed⟩ := List.mem_filterMap.1 hx
  refine hwithin e he x.1 ?_
  rw [Event.destroyed?_eq_some hdestroyed]
  rfl

theorem Proper.added (hp : h.Proper) {r : Registration} (hout : ¬ h.Within r.ticket)
    (hnew : ∀ x ∈ h.destroyed, x.1 ≠ r.ticket) :
    ({ h with registry := h.registry ++ [r] } : Host ε).Proper where
  distinct := by
    rw [List.map_append, List.nodup_append]
    refine ⟨hp.distinct, List.nodup_singleton _, fun t ht t' ht' he => hout (.inl ?_)⟩
    obtain rfl : t' = r.ticket := List.mem_singleton.1 ht'
    rw [← he]
    exact ht
  issued := by
    intro r' hr
    rcases List.mem_append.1 hr with hr | hr
    · exact hp.issued r' hr
    · rw [List.mem_singleton.1 hr]
      exact Nat.lt_of_not_le fun hle => hout (.inr hle)
  gone := by
    intro x hx hw
    apply hp.gone x hx
    refine hw.imp_left fun hmem => ?_
    rw [List.map_append, List.mem_append] at hmem
    exact hmem.resolve_right fun hlast => hnew x hx (List.mem_singleton.1 hlast)

/-- The plugin that was called first of all is registered. -/
theorem Contained.registered (ha : Contained answer) (p : Plugin) (config : PluginConfig)
    (h : Host ε) :
    let h' := (({ h with tickets := h.tickets + 1 } : Host ε).call answer h.tickets p
      (.init config.options)).2
    Follows h h' ∧ Follows h { h' with registry := h'.registry ++ [⟨h.tickets, p, config⟩] } := by
  intro h'
  let begun : Host ε := { h with tickets := h.tickets + 1 }
  let called := begun.log (.called h.tickets p.info.name (.init config.options))
  have hself : h.Within h.tickets := .inr (Nat.le_refl _)
  have hbegun : Follows h begun := .of_registry (List.Sublist.refl _) (Nat.le_succ _) rfl
  have hcall : Follows h h' := ha.call hbegun hself p (.init config.options) (by simp)
  have hscript : Follows called h' := ha.script h.tickets _ _
  refine ⟨hcall, fun t ht => ?_, hcall.journal, fun hp => ?_⟩
  · rcases ht with hmem | hle
    · rw [List.map_append, List.mem_append] at hmem
      rcases hmem with hmem | hmem
      · exact hcall.within t (.inl hmem)
      · obtain rfl : t = h.tickets := List.mem_singleton.1 hmem
        exact hself
    · exact hcall.within t (.inr hle)
  · -- its ticket was reserved, so nothing that it asked for could have to do with it
    have hreserved : ¬ called.Within h.tickets := by
      rintro (hmem | hle)
      · obtain ⟨r, hr, hticket⟩ := List.mem_map.1 hmem
        have hissued := hp.issued r hr
        omega
      · exact Nat.lt_irrefl _ hle
    refine (hcall.proper hp).added (fun hw => hreserved (hscript.within _ hw)) fun x hx he => ?_
    rcases hscript.destroyed hx with hold | hnew
    · rw [destroyed_log, List.mem_append] at hold
      refine hold.elim (fun hold => hp.gone x hold ?_) (by simp [Event.destroyed?])
      rw [he]
      exact hself
    · rw [he] at hnew
      exact hreserved hnew

theorem Contained.register (ha : Contained answer) (p : Plugin) (config : Option PluginConfig)
    (h : Host ε) : Follows h (h.register answer p config).2 := by
  cases ho : h.objection? p.info with
  | some e =>
    unfold Host.register
    rw [ho]
    exact .refl h
  | none =>
    obtain ⟨hcall, hadded⟩ := ha.registered p (config.getD p.defaultConfig) h
    rcases register_state answer ho config with he | he
    · rw [he]
      exact hcall
    · rw [he]
      exact hadded

theorem Contained.unregister (ha : Contained answer) (name : String) (h : Host ε) :
    Follows h (h.unregister answer name).2 := by
  unfold Host.unregister
  cases hfind : h.find? name with
  | none => exact .refl h
  | some r =>
    dsimp only
    split
    · exact .refl h
    · obtain ⟨a, b, -, hsplit, herase⟩ := find?_split hfind
      have hmem : r ∈ h.registry := List.mem_of_find?_eq_some hfind
      have hleft : Follows h { h with registry := h.registry.eraseP (·.name == name) } :=
        .of_registry (List.eraseP_sublist.map _) (Nat.le_refl _) rfl
      refine ha.call hleft (.inl (List.mem_map_of_mem hmem)) r.plugin .destroy fun hp _ => ?_
      -- tickets are distinct, so the one that is left out is not found elsewhere
      rintro (hin | hle)
      · have hdistinct := hp.distinct
        dsimp only at hin
        rw [herase] at hin
        rw [hsplit, List.map_append, List.map_cons] at hdistinct
        have hnot := List.nodup_middle.1 hdistinct
        rw [← List.map_append] at hnot
        exact (List.nodup_cons.1 hnot).1 hin
      · exact Nat.lt_irrefl _ (Nat.lt_of_lt_of_le (hp.issued r hmem) hle)

theorem Follows.setEnabled (name : String) (enabled : Bool) (h : Host ε) :
    Follows h (h.setEnabled name enabled).2 := by
  have hlabels := (setEnabledIn_same name enabled h.registry).1
  have htickets : (setEnabledIn name enabled h.registry).map (·.ticket) =
      h.registry.map (·.ticket) := by
    have hfst := congrArg (List.map Prod.fst) hlabels
    rwa [List.map_map, List.map_map] at hfst
  refine .of_registry ?_ (Nat.le_refl _) rfl
  show ((setEnabledIn name enabled h.registry).map (·.ticket)).Sublist _
  rw [htickets]

theorem Contained.clear (ha : Contained answer) (h : Host ε) : Follows h (h.clear answer) := by
  let emptied : Host ε := { h with registry := [] }
  -- the registry is empty from the start, and nothing that plugins ask for brings a ticket back
  have each : ∀ (rs : List Registration), (∀ r ∈ rs, r ∈ h.registry) → ∀ h', Follows h h' →
      (∀ t, h'.Within t → emptied.Within t) →
      Follows h (rs.foldl (fun h r => h.destroy answer r) h') := by
    intro rs
    induction rs with
    | nil => exact fun _ _ hf _ => hf
    | cons r rs ih =>
      intro hr h' hf hout
      have hmem := hr r List.mem_cons_self
      have hcall : Follows h (h'.destroy answer r) := by
        refine ha.call hf (.inl (List.mem_map_of_mem hmem)) r.plugin .destroy fun hp _ hw => ?_
        rcases hout r.ticket hw with hin | hle
        · simp [emptied] at hin
        · exact Nat.lt_irrefl _ (Nat.lt_of_lt_of_le (hp.issued r hmem) hle)
      refine ih (fun r' hr' => hr r' (List.mem_cons_of_mem _ hr')) _ hcall fun t ht => ?_
      exact hout t ((ha.script r.ticket _ (h'.log _)).within t ht)
  have hempty : Follows h emptied := .of_registry (List.nil_sublist _) (Nat.le_refl _) rfl
  exact each h.registry.reverse (fun r hr => List.mem_reverse.1 hr) emptied hempty fun _ ht => ht

theorem Contained.answerRegistry (ha : Contained answer) {other : Handler ε}
    (ho : Contained other) : Contained (Host.answerRegistry answer other) := by
  intro request h
  cases request with
  | register p config =>
    rw [answerRegistry_register]
    exact ha.register p config h
  | unregister name =>
    rw [answerRegistry_unregister]
    exact ha.unregister name h
  | setEnabled name enabled => exact .setEnabled name enabled h
  | clear => exact ha.clear h
  | phrase key args => exact ho _ h
  | addCatalog locale space c => exact ho _ h
  | setLocale locale => exact ho _ h

theorem contained_refuse : Contained (ε := ε) Host.refuse :=
  fun _ h => .note h rfl

/-! ### Phrase books -/

theorem Contained.notify {answer : Handler Engine} (ha : Contained answer) (s : Service) :
    Follows s (Service.notify answer s).2 := by
  refine Service.tellEach_frame Follows.refl Follows.trans (fun l _ s => ?_) s
  have hlog : Follows s (s.log (.notified l.ticket s.engine)) := .note s rfl
  exact hlog.trans (ha.script l.ticket _ _)

theorem Follows.mapEngine (s : Service) (f : Engine → Engine) : Follows s (Service.mapEngine s f) :=
  .of_registry (List.Sublist.refl _) (Nat.le_refl _) rfl

theorem Contained.phrase {answer : Handler Engine} (ha : Contained answer) (key : String)
    (args : Arguments) (s : Service) : Follows s (Service.phrase answer key args s).2 := by
  have hbefore := ha.dispatch .before (Service.contextFor s.engine key args) s
  unfold Service.phrase
  generalize s.dispatch answer .before (Service.contextFor s.engine key args) = found at hbefore ⊢
  obtain ⟨c, u⟩ := found
  dsimp only at hbefore ⊢
  split
  · exact hbefore.trans (ha.dispatch .after _ u)
  · have hmissing := ha.dispatch .missing { c with result := some (args.text?.getD key) } u
    exact ((hbefore.trans hmissing).trans (.mapEngine _ _)).trans (ha.dispatch .after _ _)

theorem Contained.perform {answer : Handler Engine} (ha : Contained answer) :
    Contained (Service.perform answer) := by
  intro request s
  cases request with
  | phrase key args => exact ha.phrase key args s
  | addCatalog l n c => exact (Follows.mapEngine s _).trans (ha.notify _)
  | setLocale locale => exact ((Follows.mapEngine s _).trans (ha.dispatch _ _ _)).trans (ha.notify _)
  | register p config => exact contained_refuse _ s
  | unregister name => exact contained_refuse _ s
  | setEnabled name enabled => exact contained_refuse _ s
  | clear => exact contained_refuse _ s

/-! ### Runs -/

theorem Contained.use (ha : Contained answer) (u : Use) (h : Host ε) :
    Follows h (h.use answer u) := by
  cases u with
  | dispatch hook c => exact ha.dispatch hook c h
  | change c =>
    cases c with
    | register p config => exact ha.register p config h
    | unregister name => exact ha.unregister name h
    | setEnabled name enabled => exact .setEnabled name enabled h
    | clear => exact ha.clear h

theorem Contained.uses (ha : Contained answer) (us : List Use) (h : Host ε) :
    Follows h (afterUses answer us h) := by
  induction us generalizing h with
  | nil => exact .refl h
  | cons u us ih => exact (ha.use u h).trans (ih _)

end Host

namespace Manager

end Manager

end Phrasebook
