import Phrasebook.Proofs.Plugin.Frame

/-!
# Plugins that fail do not get in the way

A dispatch of a hook is a row of exchanges, one for each plugin that takes part. `Hook.merge` says
what a row leaves of a context, by the last word on each field. `dispatch_contained` says that a
dispatch is such a row, and that it is the same without the plugins that failed.
-/

namespace Phrasebook

def Outcome.succeeded : Outcome → Bool
  | .failed _ => false
  | .panicked => false
  | _ => true

def Outcome.patch? : Outcome → Option Patch
  | .patch p => some p
  | _ => none

def Outcome.text? : Outcome → Option String
  | .text s => some s
  | _ => none

namespace Context

/-- The context in which each field has the value of the last patch that sets it. -/
def patchedBy (c : Context) (ps : List Patch) : Context where
  locale := (ps.filterMap (·.locale)).getLast?.getD c.locale
  space := (ps.filterMap (·.space)).getLast?.or c.space
  name := (ps.filterMap (·.name)).getLast?.or c.name
  vars := (ps.filterMap (·.vars)).getLast?.or c.vars
  result := (ps.filterMap (·.result)).getLast?.or c.result
  data := (ps.filterMap (·.data)).getLast?.getD c.data

theorem getLast?_filterMap_cons {α β : Type} (f : α → Option β) (x : α) (xs : List α) :
    ((x :: xs).filterMap f).getLast? = (xs.filterMap f).getLast?.or (f x) := by
  cases hx : f x with
  | none => rw [List.filterMap_cons_none hx, Option.or_none]
  | some y =>
    rw [List.filterMap_cons_some hx, List.getLast?_cons]
    cases (xs.filterMap f).getLast? <;> rfl

theorem patchedBy_cons (c : Context) (p : Patch) (ps : List Patch) :
    c.patchedBy (p :: ps) = (c.apply p).patchedBy ps := by
  have getD : ∀ {α : Type} (o o' : Option α) (x : α), (o.or o').getD x = o.getD (o'.getD x) := by
    intro α o o' x
    cases o <;> rfl
  unfold patchedBy apply
  simp only [getLast?_filterMap_cons, getD, Option.or_assoc]

end Context

/-- One plugin's part in a dispatch: what it saw and how it ended. -/
structure Exchange where
  registration : Registration
  seen : Context
  outcome : Outcome

namespace Exchange

def succeeded (x : Exchange) : Bool :=
  x.outcome.succeeded

def call (hook : Hook) (x : Exchange) : Nat × String × Call :=
  (x.registration.ticket, x.registration.name, hook.call x.seen)

end Exchange

namespace Hook

/-- What a row of exchanges leaves of a context: before the look-up each field has the value of the
last patch that sets it, after it the last text is the result, and other hooks change nothing. -/
def merge (hook : Hook) (c : Context) (xs : List Exchange) : Context :=
  match hook with
  | .before => c.patchedBy (xs.filterMap (·.outcome.patch?))
  | .after => { c with result := (xs.filterMap (·.outcome.text?)).getLast?.or c.result }
  | _ => c

theorem merge_nil (hook : Hook) (c : Context) : hook.merge c [] = c := by
  cases hook <;> rfl

theorem merge_cons (hook : Hook) (c : Context) (x : Exchange) (xs : List Exchange) :
    hook.merge c (x :: xs) = hook.merge (hook.absorb c x.outcome) xs := by
  obtain ⟨r, seen, o⟩ := x
  cases hook with
  | before =>
    cases o with
    | patch p => exact c.patchedBy_cons p _
    | nothing => rfl
    | text s => rfl
    | failed message => rfl
    | panicked => rfl
  | after =>
    unfold merge
    dsimp only
    rw [Context.getLast?_filterMap_cons, Option.or_assoc]
    cases o <;> rfl
  | missing => rfl
  | load locale space catalog => rfl
  | localeChange old new => rfl

theorem absorb_of_not_succeeded (hook : Hook) (c : Context) {x : Exchange}
    (hx : ¬ x.succeeded = true) : hook.absorb c x.outcome = c := by
  obtain ⟨r, seen, o⟩ := x
  cases o with
  | failed message => cases hook <;> rfl
  | panicked => cases hook <;> rfl
  | nothing => exact absurd rfl hx
  | patch p => exact absurd rfl hx
  | text s => exact absurd rfl hx

variable {reply : Registration → Call → Outcome}

/-- The exchanges with plugins that reply in this way, each with the context that the ones before
it left. -/
def exchanges (reply : Registration → Call → Outcome) (hook : Hook) :
    List Registration → Context → List Exchange
  | [], _ => []
  | r :: rs, c =>
    let o := reply r (hook.call c)
    ⟨r, c, o⟩ :: exchanges reply hook rs (hook.absorb c o)

theorem registrations_exchanges (hook : Hook) (rs : List Registration) (c : Context) :
    (exchanges reply hook rs c).map Exchange.registration = rs := by
  induction rs generalizing c with
  | nil => rfl
  | cons r rs ih => exact congrArg (r :: ·) (ih _)

theorem outcome_exchanges (hook : Hook) (rs : List Registration) (c : Context) :
    ∀ x ∈ exchanges reply hook rs c, x.outcome = reply x.registration (hook.call x.seen) := by
  induction rs generalizing c with
  | nil => simp [exchanges]
  | cons r rs ih =>
    intro x hx
    rcases List.mem_cons.1 hx with rfl | hx
    · rfl
    · exact ih _ x hx

theorem seen_exchanges (hook : Hook) (rs : List Registration) (c : Context) {a b : List Exchange}
    {x : Exchange} (h : exchanges reply hook rs c = a ++ x :: b) : x.seen = hook.merge c a := by
  induction rs generalizing c a with
  | nil => simp [exchanges] at h
  | cons r rs ih =>
    rw [exchanges] at h
    cases a with
    | nil =>
      obtain ⟨rfl, -⟩ := List.cons.inj h
      rw [merge_nil]
    | cons y a =>
      obtain ⟨rfl, hrest⟩ := List.cons.inj h
      rw [merge_cons]
      exact ih _ hrest

/-- Plugins that fail can be left out. -/
theorem exchanges_succeeded (hook : Hook) (rs : List Registration) (c : Context) :
    exchanges reply hook
        (((exchanges reply hook rs c).filter Exchange.succeeded).map Exchange.registration) c =
      (exchanges reply hook rs c).filter Exchange.succeeded := by
  induction rs generalizing c with
  | nil => rfl
  | cons r rs ih =>
    have hrest := ih (hook.absorb c (reply r (hook.call c)))
    rw [exchanges]
    by_cases hx : Exchange.succeeded ⟨r, c, reply r (hook.call c)⟩ = true
    · rw [List.filter_cons_of_pos hx, List.map_cons, exchanges, hrest]
    · -- the rest of the row goes on from the same context
      have habsorb : hook.absorb c (reply r (hook.call c)) = c := absorb_of_not_succeeded hook c hx
      rw [List.filter_cons_of_neg hx]
      rw [habsorb] at hrest ⊢
      exact hrest

theorem merge_succeeded (hook : Hook) (c : Context) (xs : List Exchange) :
    hook.merge c (xs.filter Exchange.succeeded) = hook.merge c xs := by
  induction xs generalizing c with
  | nil => rfl
  | cons x xs ih =>
    by_cases hx : x.succeeded = true
    · rw [List.filter_cons_of_pos hx, merge_cons, merge_cons, ih]
    · rw [List.filter_cons_of_neg hx, merge_cons, absorb_of_not_succeeded hook c hx, ih]

end Hook

namespace Host

variable {ε : Type} {h h₀ : Host ε}

/-- How a plugin replies to a call with what it remembers. -/
def reply (h : Host ε) (r : Registration) (c : Call) : Outcome :=
  (r.plugin.respond (h.memory r.ticket r.plugin.memory) c).outcome

/-- What one of the plugins remembers is no concern of the others: each has a ticket of its own, or
what they remember does not show in their replies. -/
def Apart (rs : List Registration) : Prop :=
  (rs.map Registration.ticket).Nodup ∨ ∀ r ∈ rs, ∀ m m' c,
    (r.plugin.respond m c).outcome = (r.plugin.respond m' c).outcome

theorem Apart.sublist {rs rs' : List Registration} (ha : Apart rs) (hs : rs'.Sublist rs) :
    Apart rs' :=
  ha.imp (fun ht => ht.sublist (hs.map _)) fun hm r hr => hm r (hs.subset hr)

theorem call_quiet (answer : Handler ε) (h : Host ε) {r : Registration} (hq : r.plugin.Quiet)
    (c : Call) :
    (h.call answer r.ticket r.plugin c).1 = h.reply r c ∧
      (h.call answer r.ticket r.plugin c).2.calls = h.calls ++ [(r.ticket, r.name, c)] ∧
      ∀ other, other ≠ r.ticket →
        (h.call answer r.ticket r.plugin c).2.memories.lookup other = h.memories.lookup other := by
  obtain ⟨ticket, ⟨info, config, memory, respond⟩, config'⟩ := r
  have hscript : (respond (h.memory ticket memory) c).Quiet := hq _ _
  have hrun := Script.run_confined answer ticket hscript (h.log (.called ticket info.name c))
  refine ⟨Script.run_outcome answer ticket _ hscript _, hrun.calls.trans ?_, hrun.memories⟩
  rw [calls_log]
  rfl

/-- A call to one plugin leaves the replies of those behind it as they are. -/
theorem reply_call (answer : Handler ε) (h : Host ε) {r : Registration} {rs : List Registration}
    (hq : r.plugin.Quiet) (ha : Apart (r :: rs)) (c : Call) :
    ∀ r' ∈ rs, ∀ c', (h.call answer r.ticket r.plugin c).2.reply r' c' = h.reply r' c' := by
  obtain ⟨-, -, hmemories⟩ := call_quiet answer h hq c
  intro r' hr' c'
  unfold reply memory
  rcases ha with ht | hm
  · have hnew : r.ticket ∉ rs.map Registration.ticket := (List.nodup_cons.1 ht).1
    have hother : r'.ticket ≠ r.ticket := fun he => hnew (he ▸ List.mem_map_of_mem hr')
    rw [hmemories _ hother]
  · exact hm r' (List.mem_cons_of_mem _ hr') _ _ c'

/-- A dispatch to quiet plugins is a row of exchanges. -/
theorem dispatchTo_quiet (answer : Handler ε) (hook : Hook) {rs : List Registration}
    (hq : ∀ r ∈ rs, r.plugin.Quiet) (ha : Apart rs) (c : Context)
    (hs : ∀ r ∈ rs, ∀ c', h.reply r c' = h₀.reply r c') :
    (dispatchTo answer hook rs c h).1 = hook.merge c (hook.exchanges h₀.reply rs c) ∧
      (dispatchTo answer hook rs c h).2.calls =
        h.calls ++ (hook.exchanges h₀.reply rs c).map (·.call hook) := by
  induction rs generalizing c h with
  | nil => exact ⟨(hook.merge_nil c).symm, (List.append_nil _).symm⟩
  | cons r rs ih =>
    have hfirst : r.plugin.Quiet := hq r List.mem_cons_self
    obtain ⟨houtcome, hcalls, -⟩ := call_quiet answer h hfirst (hook.call c)
    have hs' : ∀ r' ∈ rs, ∀ c',
        (h.call answer r.ticket r.plugin (hook.call c)).2.reply r' c' = h₀.reply r' c' :=
      fun r' hr' c' => (reply_call answer h hfirst ha (hook.call c) r' hr' c').trans
        (hs r' (List.mem_cons_of_mem _ hr') c')
    obtain ⟨hcontext, hrest⟩ := ih (fun r' hr' => hq r' (List.mem_cons_of_mem _ hr'))
      (ha.sublist (List.sublist_cons_self r rs)) (hook.absorb c (h₀.reply r (hook.call c))) hs'
    rw [dispatchTo, Hook.exchanges, Hook.merge_cons]
    dsimp only
    rw [houtcome, hs r List.mem_cons_self]
    refine ⟨hcontext, hrest.trans ?_⟩
    rw [hcalls, List.append_assoc]
    rfl

theorem dispatch_quiet (answer : Handler ε) (hook : Hook) (hq : ∀ r ∈ h.enabled, r.plugin.Quiet)
    (ha : Apart h.enabled) (c : Context) :
    (h.dispatch answer hook c).1 = hook.merge c (hook.exchanges h.reply h.enabled c) ∧
      (h.dispatch answer hook c).2.calls =
        h.calls ++ (hook.exchanges h.reply h.enabled c).map (·.call hook) :=
  dispatchTo_quiet answer hook hq ha c fun _ _ _ => rfl

/-- A dispatch without the plugins that fail. -/
theorem dispatch_without (answer : Handler ε) (hook : Hook)
    (hq : ∀ r ∈ h.enabled, r.plugin.Quiet) (ha : Apart h.enabled) (c : Context)
    {good : List Exchange} {without : Host ε}
    (hg : good = (hook.exchanges h.reply h.enabled c).filter Exchange.succeeded)
    (hw : without = { h with registry := good.map Exchange.registration }) :
    (without.dispatch answer hook c).1 = hook.merge c good ∧
      (without.dispatch answer hook c).2.calls = h.calls ++ good.map (·.call hook) := by
  have hsub : (good.map Exchange.registration).Sublist h.enabled := by
    have hall : (good.map Exchange.registration).Sublist
        ((hook.exchanges h.reply h.enabled c).map Exchange.registration) :=
      (hg ▸ List.filter_sublist).map _
    rw [hook.registrations_exchanges] at hall
    exact hall
  have henabled : without.enabled = good.map Exchange.registration := by
    subst hw
    exact List.filter_eq_self.2 fun r hr => (List.mem_filter.1 (hsub.subset hr)).2
  have hsame : hook.exchanges h.reply (good.map Exchange.registration) c = good := by
    rw [hg]
    exact hook.exchanges_succeeded _ c
  have hreply : ∀ r ∈ good.map Exchange.registration, ∀ c', without.reply r c' = h.reply r c' := by
    subst hw
    exact fun _ _ _ => rfl
  have hcalls : without.calls = h.calls := by
    subst hw
    rfl
  have hdispatch := dispatchTo_quiet answer hook (fun r hr => hq r (hsub.subset hr))
    (ha.sublist hsub) c hreply
  rw [hsame, hcalls] at hdispatch
  unfold dispatch
  rw [henabled]
  exact hdispatch

/-- Whatever the plugins do, a hook that takes no answers leaves the context as it is. -/
theorem dispatchTo_context (answer : Handler ε) {hook : Hook} (hh : ∀ c o, hook.absorb c o = c)
    (rs : List Registration) (c : Context) (h : Host ε) :
    (dispatchTo answer hook rs c h).1 = c := by
  induction rs generalizing h with
  | nil => rfl
  | cons r rs ih =>
    rw [dispatchTo]
    dsimp only
    rw [hh]
    exact ih _

/-- A dispatch consists of exchanges with the enabled plugins, in order. Each plugin sees what the
ones before it left of the context, and the last word on each field counts. Without the plugins that
failed, context and calls are the same. Hooks other than those around a look-up never change the
context. -/
theorem dispatch_contained (answer : Handler ε) (c : Context) (h : Host ε) :
    ((h.dispatch answer .missing c).1 = c ∧
      (∀ locale space catalog, (h.dispatch answer (.load locale space catalog) c).1 = c) ∧
      ∀ old new, (h.dispatch answer (.localeChange old new) c).1 = c) ∧
    ((∀ r ∈ h.enabled, r.plugin.Quiet) → Apart h.enabled →
      ∀ hook : Hook, ∃ xs : List Exchange,
        xs.map Exchange.registration = h.enabled ∧
        (∀ x ∈ xs, x.outcome = h.reply x.registration (hook.call x.seen)) ∧
        (∀ a x b, xs = a ++ x :: b → x.seen = hook.merge c a) ∧
        (h.dispatch answer hook c).1 = hook.merge c xs ∧
        (h.dispatch answer hook c).2.calls = h.calls ++ xs.map (·.call hook) ∧
        let good := xs.filter Exchange.succeeded
        let without := { h with registry := good.map Exchange.registration }
        (without.dispatch answer hook c).1 = (h.dispatch answer hook c).1 ∧
        (without.dispatch answer hook c).2.calls = h.calls ++ good.map (·.call hook)) := by
  refine ⟨⟨dispatchTo_context answer (fun _ _ => rfl) _ c h,
    fun _ _ _ => dispatchTo_context answer (fun _ _ => rfl) _ c h,
    fun _ _ => dispatchTo_context answer (fun _ _ => rfl) _ c h⟩, fun hq ha hook => ?_⟩
  obtain ⟨hcontext, hcalls⟩ := dispatch_quiet answer hook hq ha c
  obtain ⟨hcontext', hcalls'⟩ := dispatch_without answer hook hq ha c rfl rfl
  rw [hook.merge_succeeded, ← hcontext] at hcontext'
  exact ⟨hook.exchanges h.reply h.enabled c, hook.registrations_exchanges _ c,
    hook.outcome_exchanges _ c, fun a x b hx => hook.seen_exchanges _ c hx, hcontext, hcalls,
    hcontext', hcalls'⟩

/-- Two plugins that change the look-up, with three between them that do not take part, fail and
panic. -/
def mixed : Manager where
  registry :=
    [⟨0, Scripted.plugin { name := "first", kind := .processor } {}
        [("before", { patch := some { patch := { locale := some "de", name := some "a" } } })], {}⟩,
      ⟨1, Scripted.plugin { name := "off", kind := .processor } {}
        [("before", { patch := some { patch := { name := some "b" } } })], { enabled := false }⟩,
      ⟨2, Scripted.plugin { name := "failing", kind := .processor } {}
        [("before", { fails := some "no" })], {}⟩,
      ⟨3, Scripted.plugin { name := "panicking", kind := .processor } {}
        [("before", { panics := true })], {}⟩,
      ⟨4, Scripted.plugin { name := "last", kind := .processor } {}
        [("before", { patch := some { patch := { name := some "c" } } })], {}⟩]
  engine := ()

theorem dispatch_contained_mixed :
    ((mixed.dispatch refuse .before {}).1.locale = "de" ∧
      (mixed.dispatch refuse .before {}).1.name = some "c") ∧
    ∃ xs : List Exchange,
      xs.map (·.registration.name) = ["first", "failing", "panicking", "last"] ∧
      (mixed.dispatch refuse .before {}).1 = Hook.before.merge {} xs ∧
      ({ mixed with registry := (xs.filter Exchange.succeeded).map Exchange.registration }.dispatch
        refuse .before {}).1 = (mixed.dispatch refuse .before {}).1 := by
  have hquiet : ∀ r ∈ mixed.enabled, r.plugin.Quiet := by
    intro r hr
    have hmem := (List.mem_filter.1 hr).1
    simp only [mixed, List.mem_cons, List.not_mem_nil, or_false] at hmem
    rcases hmem with rfl | rfl | rfl | rfl | rfl <;> exact Scripted.quiet_plugin _ _ (by simp)
  obtain ⟨-, hdispatch⟩ := dispatch_contained refuse {} mixed
  obtain ⟨xs, hxs, -, -, hcontext, -, hsame, -⟩ :=
    hdispatch hquiet (.inl (by decide +kernel)) .before
  refine ⟨⟨by decide +kernel, by decide +kernel⟩, xs, ?_, hcontext, hsame⟩
  have hnames : mixed.enabled.map Registration.name =
      ["first", "failing", "panicking", "last"] := by decide +kernel
  rw [← hxs, List.map_map] at hnames
  exact hnames

end Host

end Phrasebook
