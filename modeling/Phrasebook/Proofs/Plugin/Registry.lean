import Mathlib.Data.List.Infix
import Mathlib.Data.List.Nodup
import Phrasebook.Proofs.Plugin.Effect

/-!
# The registry of a host

`Orderly` is what every call that changes a registry preserves: names are distinct, dependencies
stand in front, and no plugin is destroyed twice or while it is registered. `registry_orderly` draws
the conclusions for every sequence of calls.
-/

namespace Phrasebook

namespace Host

variable {ε : Type} {answer : Handler ε} {Q : Request → Prop} {h h' : Host ε}

/-! ### Dependencies stand in front -/

/-- Each dependency is one of the names or is registered further in front. -/
def DependsOn (names : List String) : List Registration → Prop
  | [] => True
  | r :: rs => (∀ d ∈ r.dependencies, d ∈ names) ∧ DependsOn (names ++ [r.name]) rs

theorem dependsOn_append {names : List String} {a b : List Registration} :
    DependsOn names (a ++ b) ↔ DependsOn names a ∧ DependsOn (names ++ a.map Registration.name) b := by
  induction a generalizing names with
  | nil => simp [DependsOn]
  | cons r a ih => simp [DependsOn, ih, and_assoc]

theorem DependsOn.mono {names names' : List String} {rs : List Registration}
    (hd : DependsOn names rs)
    (hs : ∀ r ∈ rs, ∀ d ∈ r.dependencies, d ∈ names → d ∈ names') : DependsOn names' rs := by
  induction rs generalizing names names' with
  | nil => trivial
  | cons r rs ih =>
    refine ⟨fun d hmem => hs r List.mem_cons_self d hmem (hd.1 d hmem), ih hd.2 ?_⟩
    intro r' hr' d hmem hin
    rcases List.mem_append.1 hin with hin | hin
    · exact List.mem_append_left _ (hs r' (List.mem_cons_of_mem _ hr') d hmem hin)
    · exact List.mem_append_right _ hin

/-- A plugin that nobody needs can be left out. -/
theorem DependsOn.remove {a b : List Registration} {r : Registration}
    (hd : DependsOn [] (a ++ r :: b)) (hn : ∀ d ∈ a ++ r :: b, r.name ∉ d.dependencies) :
    DependsOn [] (a ++ b) := by
  obtain ⟨hfront, -, hback⟩ := dependsOn_append.1 hd
  refine dependsOn_append.2 ⟨hfront, hback.mono ?_⟩
  intro r' hr' d hmem hin
  rcases List.mem_append.1 hin with hin | hin
  · exact hin
  · obtain rfl := List.mem_singleton.1 hin
    exact absurd hmem (hn r' (by simp [hr']))

theorem DependsOn.mem_take {names : List String} {rs : List Registration} {i : Nat}
    {r : Registration} (hd : DependsOn names rs) (hi : rs[i]? = some r) {d : String}
    (hmem : d ∈ r.dependencies) : d ∈ names ++ (rs.take i).map Registration.name := by
  induction rs generalizing names i with
  | nil => simp at hi
  | cons r' rs ih =>
    cases i with
    | zero =>
      obtain rfl : r' = r := by simpa using hi
      simpa using hd.1 d hmem
    | succ i =>
      have hrest := ih hd.2 (by simpa using hi)
      simpa using hrest

theorem setEnabledIn_same (name : String) (enabled : Bool) (rs : List Registration) :
    (setEnabledIn name enabled rs).map Registration.label = rs.map Registration.label ∧
      (setEnabledIn name enabled rs).map Registration.plugin = rs.map Registration.plugin := by
  induction rs with
  | nil => exact ⟨rfl, rfl⟩
  | cons r rs ih =>
    rw [setEnabledIn]
    split
    · exact ⟨rfl, rfl⟩
    · exact ⟨congrArg (_ :: ·) ih.1, congrArg (_ :: ·) ih.2⟩

/-- Names and dependencies belong to the plugins. -/
theorem DependsOn.of_plugins {names : List String} {rs rs' : List Registration}
    (hp : rs'.map Registration.plugin = rs.map Registration.plugin) (hd : DependsOn names rs) :
    DependsOn names rs' := by
  induction rs generalizing names rs' with
  | nil =>
    obtain rfl : rs' = [] := by simpa using hp
    trivial
  | cons r rs ih =>
    obtain ⟨r', rs'', rfl, hr, hrs⟩ := List.map_eq_cons_iff.1 hp
    have hname : r'.name = r.name := congrArg (fun p : Plugin => p.info.name) hr
    have hneeds : r'.dependencies = r.dependencies :=
      congrArg (fun p : Plugin => p.info.dependencies) hr
    refine ⟨?_, ?_⟩
    · rw [hneeds]
      exact hd.1
    · rw [hname]
      exact ih hrs hd.2

/-! ### What every call preserves -/

/-- A registry as the calls leave it. -/
structure Orderly (Q : Request → Prop) (h : Host ε) : Prop where
  names : (h.registry.map Registration.name).Nodup
  founded : DependsOn [] h.registry
  once : (h.labels ++ h.destroyed).Nodup
  issued : ∀ t ∈ h.labels ++ h.destroyed, t.1 < h.tickets
  keeps : ∀ r ∈ h.registry, r.plugin.Keeps Q

theorem orderly_empty (engine : ε) : Orderly Q { engine : Host ε } :=
  ⟨List.nodup_nil, trivial, List.nodup_nil, fun _ ht => by simp [labels, destroyed] at ht,
    fun _ hr => by simp at hr⟩

/-- It is enough to account for the plugins that were registered or destroyed before. -/
theorem Orderly.of_perm (ho : Orderly Q h) (hn : (h'.registry.map Registration.name).Nodup)
    (hf : DependsOn [] h'.registry)
    (hp : (h'.labels ++ h'.destroyed).Perm (h.labels ++ h.destroyed))
    (ht : h.tickets ≤ h'.tickets) (hk : ∀ r ∈ h'.registry, r.plugin.Keeps Q) : Orderly Q h' where
  names := hn
  founded := hf
  once := hp.nodup_iff.2 ho.once
  issued := fun t hmem => Nat.lt_of_lt_of_le (ho.issued t (hp.mem_iff.1 hmem)) ht
  keeps := hk

theorem Orderly.of_registry (ho : Orderly Q h) (hr : h'.registry = h.registry)
    (ht : h.tickets ≤ h'.tickets) (hd : h'.destroyed = h.destroyed) : Orderly Q h' := by
  have hperm : (h'.labels ++ h'.destroyed).Perm (h.labels ++ h.destroyed) := by
    unfold labels
    rw [hr, hd]
  refine ho.of_perm ?_ ?_ hperm ht ?_
  · rw [hr]
    exact ho.names
  · rw [hr]
    exact ho.founded
  · rw [hr]
    exact ho.keeps

theorem Orderly.registered (ho : Orderly Q h) {r : Registration} (hp : r.plugin.Keeps Q)
    (hl : r.ticket = h.tickets) (hobj : h.objection? r.plugin.info = none)
    (hr : h'.registry = h.registry ++ [r]) (ht : h'.tickets = h.tickets + 1)
    (hd : h'.destroyed = h.destroyed) : Orderly Q h' := by
  obtain ⟨hfree, hneeds⟩ := objection?_eq_none hobj
  have hperm : (h'.labels ++ h'.destroyed).Perm (r.label :: (h.labels ++ h.destroyed)) := by
    unfold labels
    rw [hr, hd, List.map_append, List.append_assoc]
    exact List.perm_middle
  have hnew : r.label ∉ h.labels ++ h.destroyed := by
    intro hmem
    have hless : r.ticket < h.tickets := ho.issued _ hmem
    omega
  refine ⟨?_, ?_, hperm.nodup_iff.2 (List.nodup_cons.2 ⟨hnew, ho.once⟩), fun t hmem => ?_,
    fun r' hmem => ?_⟩
  · rw [hr, List.map_append]
    refine List.nodup_append.2 ⟨ho.names, List.nodup_singleton _, ?_⟩
    intro a ha b hb hab
    obtain rfl : b = r.name := List.mem_singleton.1 hb
    subst hab
    exact hfree ha
  · rw [hr]
    exact dependsOn_append.2 ⟨ho.founded, hneeds, trivial⟩
  · rw [ht]
    rcases List.mem_cons.1 (hperm.mem_iff.1 hmem) with rfl | hmem
    · exact Nat.lt_succ_of_le (Nat.le_of_eq hl)
    · exact Nat.lt_succ_of_lt (ho.issued t hmem)
  · rw [hr] at hmem
    rcases List.mem_append.1 hmem with hmem | hmem
    · exact ho.keeps r' hmem
    · rw [List.mem_singleton.1 hmem]
      exact hp

theorem Orderly.removed (ho : Orderly Q h) {a b : List Registration} {r : Registration}
    (hs : h.registry = a ++ r :: b) (hn : ∀ d ∈ h.registry, r.name ∉ d.dependencies)
    (hr : h'.registry = a ++ b) (ht : h'.tickets = h.tickets)
    (hd : h'.destroyed = h.destroyed ++ [r.label]) : Orderly Q h' := by
  have hsub : h'.registry.Sublist h.registry := by
    rw [hr, hs]
    exact (List.sublist_cons_self r b).append_left a
  have hperm : (h'.labels ++ h'.destroyed).Perm (h.labels ++ h.destroyed) := by
    unfold labels
    rw [hr, hd, hs, List.map_append, List.map_append, List.map_cons, ← List.append_assoc]
    refine (List.perm_append_singleton _ _).trans ?_
    rw [List.append_assoc, List.append_assoc]
    exact List.perm_middle.symm
  have hfounded : DependsOn [] h'.registry := by
    have hbefore := ho.founded
    rw [hs] at hbefore hn
    rw [hr]
    exact hbefore.remove hn
  exact ho.of_perm (ho.names.sublist (hsub.map _)) hfounded hperm (Nat.le_of_eq ht.symm)
    fun r' hmem => ho.keeps r' (hsub.subset hmem)

theorem Orderly.switched (ho : Orderly Q h) (name : String) (enabled : Bool) :
    Orderly Q { h with registry := setEnabledIn name enabled h.registry } := by
  obtain ⟨hlabels, hplugins⟩ := setEnabledIn_same name enabled h.registry
  have hnames : (setEnabledIn name enabled h.registry).map Registration.name =
      h.registry.map Registration.name := by
    have hsame := congrArg (List.map fun p : Plugin => p.info.name) hplugins
    rw [List.map_map, List.map_map] at hsame
    exact hsame
  refine ho.of_perm ?_ (ho.founded.of_plugins hplugins) ?_ (Nat.le_refl _) fun r hmem => ?_
  · rw [hnames]
    exact ho.names
  · exact (List.Perm.of_eq hlabels).append_right _
  · have hmem' : r.plugin ∈ h.registry.map Registration.plugin :=
      hplugins ▸ List.mem_map_of_mem hmem
    obtain ⟨r', hr', he⟩ := List.mem_map.1 hmem'
    rw [← he]
    exact ho.keeps r' hr'

theorem Orderly.cleared (ho : Orderly Q h) (hr : h'.registry = []) (ht : h'.tickets = h.tickets)
    (hd : h'.destroyed = h.destroyed ++ h.labels.reverse) : Orderly Q h' := by
  have hperm : (h'.labels ++ h'.destroyed).Perm (h.labels ++ h.destroyed) := by
    rw [hd, show h'.labels = [] by unfold labels; rw [hr]; rfl, List.nil_append]
    exact List.perm_append_comm.trans ((List.reverse_perm _).append_right _)
  refine ho.of_perm ?_ ?_ hperm (Nat.le_of_eq ht.symm) ?_
  · rw [hr]
    exact List.nodup_nil
  · rw [hr]
    trivial
  · rw [hr]
    simp

theorem Orderly.step {c : RegistryCall} {result : Except PluginError Bool} (ho : Orderly Q h)
    (hc : c.Keeps Q) (he : Effect h c result h') : Orderly Q h' := by
  cases he with
  | refused hr ht hd => exact ho.of_registry hr ht hd
  | @registered p config _ hobj hr ht hd =>
    exact ho.registered (r := ⟨h.tickets, p, config.getD p.defaultConfig⟩) hc rfl hobj hr ht hd
  | absent => exact ho
  | removed hs hn hr ht hd => exact ho.removed hs hn hr ht hd
  | @switched name enabled => exact ho.switched name enabled
  | cleared hr ht hd => exact ho.cleared hr ht hd

/-- The plugins that are gone from the registry are destroyed, each once, and no others are. -/
structure Leaves (h : Host ε) (ds : List (Nat × String)) (h' : Host ε) : Prop where
  destroyed : h'.destroyed = h.destroyed ++ ds
  once : ds.Nodup
  mem : ∀ t, t ∈ ds ↔ t ∈ h.labels ∧ t ∉ h'.labels

theorem leaves_nil (hd : h'.destroyed = h.destroyed) (hs : h.labels ⊆ h'.labels) :
    Leaves h [] h' := by
  refine ⟨by rw [hd, List.append_nil], List.nodup_nil, fun t => ⟨fun hmem => ?_, ?_⟩⟩
  · simp at hmem
  · rintro ⟨hin, hout⟩
    exact absurd (hs hin) hout

theorem leaves_singleton {a b : List Registration} {r : Registration} (hl : h.labels.Nodup)
    (hs : h.registry = a ++ r :: b) (hr : h'.registry = a ++ b)
    (hd : h'.destroyed = h.destroyed ++ [r.label]) : Leaves h [r.label] h' := by
  refine ⟨hd, List.nodup_singleton _, fun t => ?_⟩
  unfold labels at hl ⊢
  rw [hs, List.map_append, List.map_cons] at hl ⊢
  rw [hr, List.map_append, List.mem_singleton]
  obtain ⟨hgone, -⟩ := List.nodup_cons.1 (List.nodup_middle.1 hl)
  constructor
  · rintro rfl
    exact ⟨by simp, hgone⟩
  · rintro ⟨hin, hout⟩
    simp only [List.mem_append, List.mem_cons] at hin hout
    tauto

theorem Effect.leaves {c : RegistryCall} {result : Except PluginError Bool}
    (he : Effect h c result h') (hl : h.labels.Nodup) : ∃ ds, Leaves h ds h' := by
  cases he with
  | refused hr ht hd =>
    refine ⟨[], leaves_nil hd ?_⟩
    unfold labels
    rw [hr]
    exact List.Subset.refl _
  | registered hobj hr ht hd =>
    refine ⟨[], leaves_nil hd ?_⟩
    unfold labels
    rw [hr, List.map_append]
    exact List.subset_append_left _ _
  | absent => exact ⟨[], leaves_nil rfl (List.Subset.refl _)⟩
  | @removed name a r b _ hs hn hr ht hd => exact ⟨[r.label], leaves_singleton hl hs hr hd⟩
  | @switched name enabled =>
    refine ⟨[], leaves_nil rfl ?_⟩
    unfold labels
    rw [(setEnabledIn_same name enabled h.registry).1]
    exact List.Subset.refl _
  | cleared hr ht hd =>
    have hempty : h'.labels = [] := by
      unfold labels
      rw [hr]
      rfl
    refine ⟨h.labels.reverse, hd, List.nodup_reverse.2 hl, fun t => ?_⟩
    rw [hempty, List.mem_reverse]
    simp

/-- Plugins are destroyed before those that they depend on. -/
theorem Orderly.dependents_first (ho : Orderly Q h) {r d : Registration} (hr : r ∈ h.registry)
    (hd : d ∈ h.registry) (hneeds : d.name ∈ r.dependencies) :
    [r.label, d.label].Sublist h.labels.reverse := by
  obtain ⟨i, hi⟩ := List.mem_iff_getElem?.1 hr
  obtain ⟨hlen, hget⟩ := List.getElem?_eq_some_iff.1 hi
  have hfront : d.name ∈ (h.registry.take i).map Registration.name := by
    simpa using ho.founded.mem_take hi hneeds
  obtain ⟨d', hd', hname⟩ := List.mem_map.1 hfront
  obtain rfl : d' = d :=
    List.inj_on_of_nodup_map ho.names (List.mem_of_mem_take hd') hd hname
  have hpair : [d', r].Sublist h.registry := by
    have hsplit : h.registry = h.registry.take i ++ r :: h.registry.drop (i + 1) := by
      rw [← hget, List.getElem_cons_drop, List.take_append_drop]
    rw [hsplit]
    exact (List.singleton_sublist.2 hd').append (List.singleton_sublist.2 List.mem_cons_self)
  have hlabels := (hpair.map Registration.label).reverse
  exact hlabels

variable {calls : List RegistryCall}

theorem orderly_after (ha : Aloof Q answer) (hq : ∀ c ∈ calls, c.Keeps Q) (engine : ε) :
    Orderly Q (after answer calls { engine }) := by
  induction calls using List.reverseRecOn with
  | nil => exact orderly_empty engine
  | append_singleton calls c ih =>
    have hbefore := ih fun c' hc' => hq c' (List.mem_append_left _ hc')
    have hc : c.Keeps Q := hq c (by simp)
    rw [after_concat]
    exact hbefore.step hc (effect_carryOut ha hbefore.keeps hc)

/-- The plugin was registered at some time during the calls. -/
def WasRegistered (answer : Handler ε) (calls : List RegistryCall) (h : Host ε)
    (t : Nat × String) : Prop :=
  ∃ past, past <+: calls ∧ t ∈ (after answer past h).labels

theorem wasRegistered_of_mem {t : Nat × String} (ht : t ∈ (after answer calls h).labels) :
    WasRegistered answer calls h t :=
  ⟨calls, List.prefix_refl _, ht⟩

theorem wasRegistered_concat {c : RegistryCall} {t : Nat × String} :
    WasRegistered answer (calls ++ [c]) h t ↔
      WasRegistered answer calls h t ∨ t ∈ (after answer (calls ++ [c]) h).labels := by
  constructor
  · rintro ⟨past, hprefix, ht⟩
    rcases List.prefix_concat_iff.1 hprefix with rfl | hprefix
    · exact .inr ht
    · exact .inl ⟨past, hprefix, ht⟩
  · rintro (⟨past, hprefix, ht⟩ | ht)
    · exact ⟨past, hprefix.trans (List.prefix_append _ _), ht⟩
    · exact wasRegistered_of_mem ht

/-- The plugins that were destroyed are those that were registered and are so no more. -/
theorem mem_destroyed_after (ha : Aloof Q answer) (hq : ∀ c ∈ calls, c.Keeps Q) (engine : ε)
    (t : Nat × String) :
    t ∈ (after answer calls { engine }).destroyed ↔
      WasRegistered answer calls { engine } t ∧ t ∉ (after answer calls { engine }).labels := by
  induction calls using List.reverseRecOn with
  | nil =>
    constructor
    · intro hmem
      simp [after, destroyed] at hmem
    · rintro ⟨⟨past, hpast, hmem⟩, hout⟩
      obtain rfl := List.prefix_nil.1 hpast
      exact absurd hmem hout
  | append_singleton calls c ih =>
    have hq' : ∀ c' ∈ calls, c'.Keeps Q := fun c' hc' => hq c' (List.mem_append_left _ hc')
    have hbefore : Orderly Q (after answer calls { engine }) := orderly_after ha hq' engine
    have hafter : Orderly Q (after answer (calls ++ [c]) { engine }) := orderly_after ha hq engine
    have heffect := effect_carryOut ha hbefore.keeps (hq c (by simp))
    rw [← after_concat] at heffect
    obtain ⟨ds, hds, -, hmem⟩ := heffect.leaves hbefore.once.of_append_left
    have hdisjoint := List.disjoint_of_nodup_append hafter.once
    rw [wasRegistered_concat]
    -- what was destroyed before stays out of the registry, since labels are not given again
    constructor
    · intro ht
      have hout : t ∉ (after answer (calls ++ [c]) { engine }).labels :=
        fun hin => hdisjoint hin ht
      rw [hds] at ht
      rcases List.mem_append.1 ht with ht | ht
      · exact ⟨.inl ((ih hq').1 ht).1, hout⟩
      · exact ⟨.inl (wasRegistered_of_mem ((hmem t).1 ht).1), hout⟩
    · rintro ⟨hin | hin, hout⟩
      · rw [hds]
        by_cases hstill : t ∈ (after answer calls { engine }).labels
        · exact List.mem_append_right _ ((hmem t).2 ⟨hstill, hout⟩)
        · exact List.mem_append_left _ ((ih hq').2 ⟨hin, hstill⟩)
      · exact absurd hin hout

/-- After any calls the names are distinct and dependencies stand in front, and the plugins that
were destroyed, each once, are those that were registered and are so no more. A call that is refused
leaves the registry as it was, a call destroys just the plugins that leave with it, and clearing
destroys dependents first. -/
theorem registry_orderly (ha : Aloof Q answer) (hq : ∀ c ∈ calls, c.Keeps Q) (engine : ε) :
    let h := after answer calls { engine }
    (h.registry.map Registration.name).Nodup ∧
    (∀ i r, h.registry[i]? = some r →
      ∀ d ∈ r.dependencies, d ∈ (h.registry.take i).map Registration.name) ∧
    h.destroyed.Nodup ∧
    (∀ t, t ∈ h.destroyed ↔ WasRegistered answer calls { engine } t ∧ t ∉ h.labels) ∧
    ∀ c : RegistryCall, c.Keeps Q →
      let h' := (c.carryOut answer h).2
      (∀ e, (c.carryOut answer h).1 = .error e → h'.registry = h.registry) ∧
      ∃ ds, Leaves h ds h' ∧
        (c = .clear → h'.registry = [] ∧
          ∀ r ∈ h.registry, ∀ d ∈ h.registry, d.name ∈ r.dependencies →
            [r.label, d.label].Sublist ds) := by
  intro h
  have ho : Orderly Q h := orderly_after ha hq engine
  refine ⟨ho.names, fun i r hi d hmem => ?_, ho.once.of_append_right,
    mem_destroyed_after ha hq engine, fun c hc => ?_⟩
  · simpa using ho.founded.mem_take hi hmem
  have heffect := effect_carryOut ha ho.keeps hc
  obtain ⟨ds, hleaves⟩ := heffect.leaves ho.once.of_append_left
  refine ⟨fun e he => ?_, ds, hleaves, ?_⟩
  · rw [he] at heffect
    cases heffect with
    | refused hr ht hd => exact hr
  · rintro rfl
    cases heffect with
    | cleared hr ht hd =>
      obtain rfl : ds = h.labels.reverse :=
        List.append_cancel_left (hleaves.destroyed.symm.trans hd)
      exact ⟨hr, fun r hr' d hd' hneeds => ho.dependents_first hr' hd' hneeds⟩

/-- A plugin and one that depends on it, neither of which ends well, and one that does not start. -/
def troubled : List RegistryCall :=
  [.register (Scripted.plugin { name := "base", kind := .processor } {}
      [("destroy", { panics := true })]) none,
    .register (Scripted.plugin { name := "top", kind := .processor, dependencies := ["base"] } {}
      [("destroy", { fails := some "no" })]) none,
    .register (Scripted.plugin { name := "broken", kind := .processor } {}
      [("init", { fails := some "no" })]) none,
    .unregister "base",
    .setEnabled "base" false]

theorem registry_orderly_troubled :
    let h := after refuse troubled { engine := () }
    let h' := (RegistryCall.clear.carryOut refuse h).2
    h.registry.map Registration.name = ["base", "top"] ∧ h'.registry = [] ∧
      ∃ ds, h'.destroyed = h.destroyed ++ ds ∧ ds.Nodup ∧ [(1, "top"), (0, "base")].Sublist ds := by
  have hnames : (after refuse troubled { engine := () }).registry.map Registration.name =
      ["base", "top"] := by decide +kernel
  have hkeeps : ∀ c ∈ troubled, c.Keeps fun _ => False := by
    intro c hc
    simp only [troubled, List.mem_cons, List.not_mem_nil, or_false] at hc
    rcases hc with rfl | rfl | rfl | rfl | rfl
    · exact Scripted.quiet_plugin _ _ (by simp)
    · exact Scripted.quiet_plugin _ _ (by simp)
    · exact Scripted.quiet_plugin _ _ (by simp)
    · exact trivial
    · exact trivial
  have haloof : Aloof (fun _ => False) (refuse : Handler Unit) := fun _ _ hno => hno.elim
  obtain ⟨-, -, -, -, hcalls⟩ := registry_orderly haloof hkeeps ()
  obtain ⟨-, ds, ⟨hds, hnodup, -⟩, hclear⟩ := hcalls .clear trivial
  obtain ⟨hempty, hfirst⟩ := hclear rfl
  let rs := (after refuse troubled { engine := () }).registry
  let base := rs.get ⟨0, by decide +kernel⟩
  let top := rs.get ⟨1, by decide +kernel⟩
  have hpair : [top.label, base.label].Sublist ds :=
    hfirst top (List.get_mem rs _) base (List.get_mem rs _) (by decide +kernel)
  have hlabels : [top.label, base.label] = [(1, "top"), (0, "base")] := by decide +kernel
  rw [hlabels] at hpair
  exact ⟨hnames, hempty, ds, hds, hnodup, hpair⟩

end Host

end Phrasebook
