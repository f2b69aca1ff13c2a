import Phrasebook.Proofs.Plugin.Frame

/-!
# Calls that change a registry

A registry is changed by four calls, and `Effect` lists what each of them can come to while the
plugins that are called meanwhile keep away from the registry. A registration is known by its label,
and the journal tells which ones were destroyed.
-/

namespace Phrasebook

variable {ε : Type}

namespace Registration

/-- What tells a registration from every other. -/
def label (r : Registration) : Nat × String :=
  (r.ticket, r.name)

def dependencies (r : Registration) : List String :=
  r.plugin.info.dependencies

end Registration

def Event.destroyed? : Event → Option (Nat × String)
  | .called ticket name .destroy => some (ticket, name)
  | _ => none

/-- The calls that change a registry. -/
inductive RegistryCall where
  | register (plugin : Plugin) (config : Option PluginConfig)
  | unregister (name : String)
  | setEnabled (name : String) (enabled : Bool)
  | clear

/-- A plugin that the call brings along asks only for what is allowed. -/
def RegistryCall.Keeps (Q : Request → Prop) : RegistryCall → Prop
  | .register plugin _ => plugin.Keeps Q
  | _ => True

/-- Carries out a call; the answer tells why it was refused, or whether there was such a plugin. -/
def RegistryCall.carryOut (answer : Handler ε) :
    RegistryCall → Host ε → Except PluginError Bool × Host ε
  | .register plugin config, h =>
    let (result, h) := h.register answer plugin config
    (result.map fun _ => true, h)
  | .unregister name, h => h.unregister answer name
  | .setEnabled name enabled, h =>
    let (found, h) := h.setEnabled name enabled
    (.ok found, h)
  | .clear, h => (.ok true, h.clear answer)

namespace Host

variable {answer : Handler ε} {Q : Request → Prop} {h h' h'' : Host ε}

def after (answer : Handler ε) (calls : List RegistryCall) (h : Host ε) : Host ε :=
  calls.foldl (fun h c => (c.carryOut answer h).2) h

theorem after_concat (calls : List RegistryCall) (c : RegistryCall) (h : Host ε) :
    after answer (calls ++ [c]) h = (c.carryOut answer (after answer calls h)).2 := by
  unfold after
  rw [List.foldl_append]
  rfl

def labels (h : Host ε) : List (Nat × String) :=
  h.registry.map Registration.label

/-- The plugins that were called for the last time, in order. -/
def destroyed (h : Host ε) : List (Nat × String) :=
  h.journal.filterMap Event.destroyed?

theorem destroyed_log (h : Host ε) (e : Event) :
    (h.log e).destroyed = h.destroyed ++ e.destroyed?.toList := by
  unfold destroyed log
  rw [List.filterMap_append]
  cases he : e.destroyed? <;> simp [he]

/-! ### Calls of plugins -/

structure Untouched (h h' : Host ε) : Prop where
  registry : h'.registry = h.registry
  tickets : h'.tickets = h.tickets
  destroyed : h'.destroyed = h.destroyed

theorem Untouched.refl (h : Host ε) : Untouched h h :=
  ⟨rfl, rfl, rfl⟩

theorem Untouched.trans (hl : Untouched h h') (hr : Untouched h' h'') : Untouched h h'' :=
  ⟨hr.registry.trans hl.registry, hr.tickets.trans hl.tickets, hr.destroyed.trans hl.destroyed⟩

/-- What plugins are allowed to ask for does not lead back to the registry. -/
def Aloof (Q : Request → Prop) (answer : Handler ε) : Prop :=
  ∀ request h, Q request → Untouched h (answer request h).2

theorem untouched_call (ha : Aloof Q answer) (ticket : Nat) {p : Plugin} (hp : p.Keeps Q)
    (c : Call) (h : Host ε) :
    Untouched (h.log (.called ticket p.info.name c)) (h.call answer ticket p c).2 := by
  obtain ⟨info, config, memory, respond⟩ := p
  rw [Plugin.Keeps] at hp
  refine Script.run_frame Untouched.refl Untouched.trans (fun entry h => ⟨rfl, rfl, ?_⟩)
    (fun _ _ => ⟨rfl, rfl, rfl⟩) ha _ (hp _ _) _
  rw [destroyed_log]
  exact List.append_nil _

theorem untouched_init (ha : Aloof Q answer) (ticket : Nat) {p : Plugin} (hp : p.Keeps Q)
    (options : Vars) (h : Host ε) : Untouched h (h.call answer ticket p (.init options)).2 := by
  have hlog : Untouched h (h.log (.called ticket p.info.name (.init options))) := by
    refine ⟨rfl, rfl, ?_⟩
    rw [destroyed_log]
    exact List.append_nil _
  exact hlog.trans (untouched_call ha ticket hp (.init options) h)

theorem destroyed_destroy (ha : Aloof Q answer) {r : Registration} (hr : r.plugin.Keeps Q)
    (h : Host ε) : (destroy answer r h).registry = h.registry ∧
      (destroy answer r h).tickets = h.tickets ∧
      (destroy answer r h).destroyed = h.destroyed ++ [r.label] := by
  have hcall := untouched_call ha r.ticket hr .destroy h
  refine ⟨hcall.registry, hcall.tickets, hcall.destroyed.trans ?_⟩
  rw [destroyed_log]
  rfl

theorem destroyed_foldl (ha : Aloof Q answer) (rs : List Registration)
    (hr : ∀ r ∈ rs, r.plugin.Keeps Q) (h : Host ε) :
    let h' := rs.foldl (fun h r => h.destroy answer r) h
    h'.registry = h.registry ∧ h'.tickets = h.tickets ∧
      h'.destroyed = h.destroyed ++ rs.map Registration.label := by
  induction rs generalizing h with
  | nil => exact ⟨rfl, rfl, (List.append_nil _).symm⟩
  | cons r rs ih =>
    obtain ⟨hregistry, htickets, hdestroyed⟩ := destroyed_destroy ha (hr r List.mem_cons_self) h
    obtain ⟨hregistry', htickets', hdestroyed'⟩ :=
      ih (fun r' h' => hr r' (List.mem_cons_of_mem _ h')) (destroy answer r h)
    refine ⟨hregistry'.trans hregistry, htickets'.trans htickets, hdestroyed'.trans ?_⟩
    rw [hdestroyed, List.append_assoc]
    rfl

/-! ### What a call comes to -/

inductive Effect (h : Host ε) : RegistryCall → Except PluginError Bool → Host ε → Prop
  | refused {c e} {h' : Host ε} (hr : h'.registry = h.registry) (ht : h.tickets ≤ h'.tickets)
      (hd : h'.destroyed = h.destroyed) : Effect h c (.error e) h'
  | registered {p config} {h' : Host ε} (ho : h.objection? p.info = none)
      (hr : h'.registry = h.registry ++ [⟨h.tickets, p, config.getD p.defaultConfig⟩])
      (ht : h'.tickets = h.tickets + 1) (hd : h'.destroyed = h.destroyed) :
      Effect h (.register p config) (.ok true) h'
  | absent {name} : Effect h (.unregister name) (.ok false) h
  | removed {name a r b} {h' : Host ε} (hs : h.registry = a ++ r :: b)
      (hn : ∀ d ∈ h.registry, r.name ∉ d.dependencies) (hr : h'.registry = a ++ b)
      (ht : h'.tickets = h.tickets) (hd : h'.destroyed = h.destroyed ++ [r.label]) :
      Effect h (.unregister name) (.ok true) h'
  | switched {name enabled} : Effect h (.setEnabled name enabled) (.ok (h.has name))
      { h with registry := setEnabledIn name enabled h.registry }
  | cleared {h' : Host ε} (hr : h'.registry = []) (ht : h'.tickets = h.tickets)
      (hd : h'.destroyed = h.destroyed ++ h.labels.reverse) :
      Effect h .clear (.ok true) h'

theorem has_iff {name : String} : h.has name = true ↔ name ∈ h.registry.map Registration.name := by
  unfold has
  rw [List.any_eq_true, List.mem_map]
  simp

theorem objection?_eq_none {info : PluginInfo} (ho : h.objection? info = none) :
    info.name ∉ h.registry.map Registration.name ∧
      ∀ d ∈ info.dependencies, d ∈ h.registry.map Registration.name := by
  unfold objection? at ho
  split at ho
  · simp at ho
  · rename_i hfree
    rw [Option.map_eq_none_iff, List.find?_eq_none] at ho
    refine ⟨fun hmem => hfree (has_iff.2 hmem), fun d hmem => has_iff.1 ?_⟩
    simpa using ho d hmem

theorem effect_register (ha : Aloof Q answer) {p : Plugin} (hp : p.Keeps Q)
    (config : Option PluginConfig) (h : Host ε) :
    Effect h (.register p config) ((RegistryCall.register p config).carryOut answer h).1
      ((RegistryCall.register p config).carryOut answer h).2 := by
  unfold RegistryCall.carryOut register
  dsimp only
  cases ho : h.objection? p.info with
  | some e => exact .refused rfl (Nat.le_refl _) rfl
  | none =>
    have hinit := untouched_init ha h.tickets hp (config.getD p.defaultConfig).options
      { h with tickets := h.tickets + 1 }
    dsimp only
    generalize call answer h.tickets p (.init (config.getD p.defaultConfig).options)
      { h with tickets := h.tickets + 1 } = started at hinit ⊢
    obtain ⟨o, h'⟩ := started
    have hmore : h.tickets ≤ h'.tickets := by
      rw [hinit.tickets]
      exact Nat.le_succ _
    -- the callback did not register another plugin of the name
    have hhas : h'.has p.info.name = false := by
      have hfree := (objection?_eq_none ho).1
      rw [← Bool.not_eq_true, has_iff, hinit.registry]
      exact hfree
    have hadded : Effect h (.register p config) (.ok true)
        { h' with registry := h'.registry ++ [⟨h.tickets, p, config.getD p.defaultConfig⟩] } :=
      .registered ho (congrArg (· ++ _) hinit.registry) hinit.tickets hinit.destroyed
    cases o with
    | failed cause => exact .refused hinit.registry hmore hinit.destroyed
    | panicked => exact .refused hinit.registry hmore hinit.destroyed
    | nothing =>
      dsimp only
      rw [hhas]
      exact hadded
    | patch _ =>
      dsimp only
      rw [hhas]
      exact hadded
    | text _ =>
      dsimp only
      rw [hhas]
      exact hadded

/-- The plugin that is found is the one that is left out. -/
theorem find?_split {name : String} {r : Registration} (hf : h.find? name = some r) :
    ∃ a b, r.name = name ∧ h.registry = a ++ r :: b ∧
      h.registry.eraseP (·.name == name) = a ++ b := by
  obtain ⟨hname, a, b, hsplit, hbefore⟩ := List.find?_eq_some_iff_append.1 hf
  obtain rfl : r.name = name := by simpa using hname
  refine ⟨a, b, rfl, hsplit, ?_⟩
  rw [hsplit, List.eraseP_append_right _ (by simpa using hbefore),
    List.eraseP_cons_of_pos (by simp)]

theorem effect_unregister (ha : Aloof Q answer) (hq : ∀ r ∈ h.registry, r.plugin.Keeps Q)
    (name : String) :
    Effect h (.unregister name) (h.unregister answer name).1 (h.unregister answer name).2 := by
  unfold unregister
  cases hf : h.find? name with
  | none => exact .absent
  | some r =>
    obtain ⟨a, b, rfl, hsplit, herase⟩ := find?_split hf
    dsimp only
    cases hd : h.registry.find? fun d => d.plugin.info.dependencies.contains r.name with
    | some d => exact .refused rfl (Nat.le_refl _) rfl
    | none =>
      have hneeded : ∀ d ∈ h.registry, r.name ∉ d.dependencies := by
        intro d hmem hneeds
        have hno := List.find?_eq_none.1 hd d hmem
        exact hno (List.contains_iff_mem.2 hneeds)
      have hkeeps : r.plugin.Keeps Q := hq r (List.mem_of_find?_eq_some hf)
      obtain ⟨hregistry, htickets, hdestroyed⟩ := destroyed_destroy ha hkeeps
        { h with registry := h.registry.eraseP (·.name == r.name) }
      exact .removed hsplit hneeded (hregistry.trans herase) htickets hdestroyed

theorem effect_clear (ha : Aloof Q answer) (hq : ∀ r ∈ h.registry, r.plugin.Keeps Q) :
    Effect h .clear (.ok true) (h.clear answer) := by
  obtain ⟨hregistry, htickets, hdestroyed⟩ := destroyed_foldl ha h.registry.reverse
    (fun r hr => hq r (List.mem_reverse.1 hr)) { h with registry := [] }
  rw [List.map_reverse] at hdestroyed
  exact .cleared hregistry htickets hdestroyed

theorem effect_carryOut (ha : Aloof Q answer) (hq : ∀ r ∈ h.registry, r.plugin.Keeps Q)
    {c : RegistryCall} (hc : c.Keeps Q) :
    Effect h c (c.carryOut answer h).1 (c.carryOut answer h).2 := by
  cases c with
  | register p config => exact effect_register ha hc config h
  | unregister name => exact effect_unregister ha hq name
  | setEnabled name enabled => exact .switched
  | clear => exact effect_clear ha hq

end Host

end Phrasebook
