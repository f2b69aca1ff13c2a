import Mathlib.Data.Set.Defs
import Phrasebook.Proofs.Service.Repetition
import Phrasebook.Proofs.Service.Supply

/-!
# Hooks that ask for texts

A plugin that is told of a missing key may ask for a text, and if that one is missing too, plugins
are told again, before the first key is recorded. `Ends` says that some depth is enough for all the
requests inside of a call. `ends_of_descends` is about plugins whose requests lead down a
well-founded relation, and `refusals_lt_of_circles` about those that keep each other asking.
-/

namespace Phrasebook

def Event.refused? : Event → Option Request
  | .refused request => some request
  | _ => none

def Request.IsPhrase : Request → Prop
  | .phrase _ _ => True
  | _ => False

/-- Whatever it is answered meanwhile, the script comes to ask for such a thing. -/
def Script.AsksFor (P : Request → Prop) : Script → Prop
  | .finish _ => False
  | .note _ rest => rest.AsksFor P
  | .remember _ rest => rest.AsksFor P
  | .ask q next => P q ∨ ∀ a, (next a).AsksFor P

/-- Where the placeholder of a missing key is stored. -/
def Context.place (c : Context) : String × String × String :=
  (c.locale, c.space.getD "", c.name.getD "")

/-- What may be asked for during a call: what `P` says when a key is missing, and nothing else. -/
def Call.Allows (P : Context → Request → Prop) : Call → Request → Prop
  | .missing c => P c
  | _ => fun _ => False

def Registration.Inquires (P : Context → Request → Prop) (r : Registration) : Prop :=
  ∀ memory call, (r.plugin.respond memory call).Keeps (call.Allows P)

/-- The plugin leaves it to others what is looked up. -/
def Registration.Idle (r : Registration) : Prop :=
  ∀ memory c, r.plugin.respond memory (.before c) = .finish .nothing

namespace Service

variable {α β : Type} {P : Context → Request → Prop} {Q : Request → Prop}
  {r : Context → Context → Prop} {s t u : Service} {c : Context} {key : String} {args : Arguments}

/-- How many requests were nested too deeply so far. -/
def refusals (s : Service) : Nat :=
  (s.journal.filterMap Event.refused?).length

def Inquires (P : Context → Request → Prop) (s : Service) : Prop :=
  ∀ r ∈ s.registry, r.Inquires P

/-- What a state may become while texts are asked for. -/
structure Precedes (s t : Service) : Prop where
  registry : t.registry = s.registry
  settings : t.engine.settings = s.engine.settings
  locale : t.engine.locale = s.engine.locale
  texts : ∀ l n k, s.engine.store.flat? l n k ≠ none → t.engine.store.flat? l n k ≠ none

/-- From some depth on the call has the same outcome, and nothing is refused. -/
def Ends (s : Service) (key : String) (args : Arguments) : Prop :=
  ∃ depth o, (∀ d, depth ≤ d → phrase (answer d) key args s = o) ∧ o.2.refusals = s.refusals

/-- The request is for a text, and whenever that is missing, the plugins are told of a context below
this one. -/
def Descends (s : Service) (r : Context → Context → Prop) (c : Context) : Request → Prop
  | .phrase key args => ∀ t c' u, s.Precedes t →
      reported? Host.refuse key args t = some (c', u) → r c' c
  | _ => False

theorem Precedes.refl (s : Service) : s.Precedes s :=
  ⟨rfl, rfl, rfl, fun _ _ _ h => h⟩

theorem Precedes.trans (h : s.Precedes t) (h' : t.Precedes u) : s.Precedes u :=
  ⟨h'.registry.trans h.registry, h'.settings.trans h.settings, h'.locale.trans h.locale,
    fun l n k hk => h'.texts l n k (h.texts l n k hk)⟩

theorem Precedes.of_undisturbed (h : Host.Undisturbed s t) : s.Precedes t := by
  refine ⟨h.registry, ?_, ?_, fun l n k hk => ?_⟩
  · rw [h.engine]
  · rw [h.engine]
  · rw [h.engine]
    exact hk

theorem Precedes.sought (h : s.Precedes t) (key : String) :
    t.engine.sought key = s.engine.sought key := by
  unfold Engine.sought
  rw [h.settings, h.locale]

theorem precedes_recordMissing (s : Service) (l n k text : String) :
    s.Precedes (mapEngine s (·.recordMissing l n k text)) := by
  obtain ⟨saving, loading, tasks, hframe⟩ := Engine.recordMissing_frame s.engine l n k text
  refine ⟨rfl, ?_, ?_, fun l' n' k' hk => ?_⟩
  · exact (Engine.settings_recordMissing s.engine l n k text).1
  · show (s.engine.recordMissing l n k text).locale = _
    rw [hframe]
  · show (s.engine.recordMissing l n k text).store.flat? l' n' k' ≠ none
    rw [Engine.recordMissing_store]
    split
    · exact hk
    · rw [Store.flat?_set]
      split
      · simp
      · exact hk

theorem refusals_undisturbed (h : Host.Undisturbed s t) : t.refusals = s.refusals := by
  unfold refusals
  rw [h.filterMap fun e he => ?_]
  cases e with
  | refused request => exact he.elim
  | called => rfl
  | noted => rfl
  | notified => rfl
  | loaderAsked => rfl
  | saverAsked => rfl

theorem Inquires.of_registry (h : s.Inquires P) (hr : t.registry = s.registry) : t.Inquires P := by
  unfold Inquires
  rw [hr]
  exact h

theorem Inquires.before (h : s.Inquires P) : ∀ r ∈ s.registry, r.QuietTo .before :=
  fun r hr memory c => h r hr memory (.before c)

theorem Inquires.after (h : s.Inquires P) : ∀ r ∈ s.registry, r.QuietTo .after :=
  fun r hr memory c => h r hr memory (.after c)

/-! ### What a call comes to -/

theorem finish_quiet (h : s.Inquires P) (c : Context) (template : String) :
    ∃ o, (∀ answer, finish answer c template s = o) ∧ Host.Undisturbed s o.2 := by
  refine ⟨finish Host.refuse c template s, fun answer => ?_, ?_⟩
  · unfold finish
    dsimp only
    rw [Host.dispatch_congr answer Host.refuse h.after]
  · exact Host.dispatch_undisturbed _ h.after _

/-- A call that finds a text does not depend on how requests are answered. -/
theorem phrase_found (h : s.Inquires P) (hrep : reported? Host.refuse key args s = none) :
    ∃ o, (∀ answer, phrase answer key args s = o) ∧ Host.Undisturbed s o.2 := by
  have hbefore := Host.dispatch_undisturbed Host.refuse h.before (contextFor s.engine key args)
  unfold reported? at hrep
  generalize hfound : s.dispatch Host.refuse .before (contextFor s.engine key args) = found
    at hrep hbefore
  obtain ⟨c, u⟩ := found
  dsimp only at hrep hbefore
  cases hf : u.engine.findTemplate c.locale (c.space.getD "") (c.name.getD "")
      (countOf c.vars) with
  | none =>
    rw [hf] at hrep
    simp at hrep
  | some template =>
    obtain ⟨o, ho, hlast⟩ := finish_quiet (h.of_registry hbefore.registry) c template
    refine ⟨o, fun answer => ?_, hbefore.trans hlast⟩
    unfold phrase
    rw [Host.dispatch_congr answer Host.refuse h.before, hfound]
    dsimp only
    rw [hf]
    exact ho answer

/-- Otherwise only the plugins that are told of the key can ask for anything. -/
theorem phrase_missed (h : s.Inquires P) (hrep : reported? Host.refuse key args s = some (c, u)) :
    Host.Undisturbed s u ∧ ∀ answer, phrase answer key args s =
      finish answer c (args.text?.getD key)
        (miss answer c (c.space.getD "") (c.name.getD "") (args.text?.getD (c.name.getD "")) u) := by
  constructor
  · have hbefore := Host.dispatch_undisturbed Host.refuse h.before (contextFor s.engine key args)
    unfold reported? at hrep
    generalize s.dispatch Host.refuse .before (contextFor s.engine key args) = found
      at hrep hbefore
    obtain ⟨c', u'⟩ := found
    dsimp only at hrep hbefore
    cases hf : u'.engine.findTemplate c'.locale (c'.space.getD "") (c'.name.getD "")
        (countOf c'.vars) with
    | some template =>
      rw [hf] at hrep
      simp at hrep
    | none =>
      rw [hf] at hrep
      obtain ⟨-, rfl⟩ := Prod.mk.inj (Option.some.inj hrep)
      exact hbefore
  · intro answer
    refine phrase_of_reported ?_
    rw [← hrep]
    unfold reported?
    rw [Host.dispatch_congr answer Host.refuse h.before]

/-! ### Requests that lead downwards -/

/-- The same as `Ends`, for any part of a call. -/
def Finishes (f : Nat → α × Service) (s : Service) : Prop :=
  ∃ depth o, (∀ d, depth ≤ d → f d = o) ∧ o.2.refusals = s.refusals ∧ s.Precedes o.2

theorem Finishes.quiet {f : Nat → α × Service} {o : α × Service} (hf : ∀ d, f d = o)
    (hu : Host.Undisturbed s o.2) : Finishes f s :=
  ⟨0, o, fun d _ => hf d, refusals_undisturbed hu, .of_undisturbed hu⟩

theorem Finishes.bind {f : Nat → α × Service} {g : Nat → α × Service → β × Service}
    (hf : Finishes f s) (hg : ∀ o, s.Precedes o.2 → Finishes (fun d => g d o) o.2) :
    Finishes (fun d => g d (f d)) s := by
  obtain ⟨depth, o, ho, hrefusals, hprecedes⟩ := hf
  obtain ⟨depth', o', ho', hrefusals', hprecedes'⟩ := hg o hprecedes
  refine ⟨max depth depth', o', fun d hd => ?_, hrefusals'.trans hrefusals,
    hprecedes.trans hprecedes'⟩
  show g d (f d) = o'
  rw [ho d (by omega)]
  exact ho' d (by omega)

theorem Finishes.of_undisturbed {f : Nat → α × Service} (hu : Host.Undisturbed s t)
    (hf : Finishes f t) : Finishes f s := by
  obtain ⟨depth, o, ho, hrefusals, hprecedes⟩ := hf
  exact ⟨depth, o, ho, hrefusals.trans (refusals_undisturbed hu),
    (Precedes.of_undisturbed hu).trans hprecedes⟩

theorem finishes_answer (h : Finishes (fun d => phrase (answer d) key args s) s) :
    Finishes (fun d => answer d (.phrase key args) s) s := by
  obtain ⟨depth, o, ho, hrefusals, hprecedes⟩ := h
  refine ⟨depth + 1, (.text o.1, o.2), fun d hd => ?_, hrefusals, hprecedes⟩
  obtain ⟨d, rfl⟩ := Nat.exists_eq_add_of_le' (Nat.le_trans (Nat.le_add_left 1 depth) hd)
  have hphrase : phrase (answer d) key args s = o := ho d (by omega)
  show (Answer.text (phrase (answer d) key args s).1, (phrase (answer d) key args s).2) = _
  rw [hphrase]

theorem finishes_run (hq : ∀ q t, Q q → s.Precedes t → Finishes (fun d => answer d q t) t)
    (ticket : Nat) (script : Script) (hk : script.Keeps Q) (t : Service) (ht : s.Precedes t) :
    Finishes (fun d => script.run (answer d) ticket t) t := by
  match script with
  | .finish o => exact .quiet (fun _ => rfl) (Host.Undisturbed.refl t)
  | .note entry rest =>
    have hlog : Host.Undisturbed t (t.log (.noted entry)) := t.undisturbed_log trivial
    exact .of_undisturbed hlog (finishes_run hq ticket rest hk _ (ht.trans (.of_undisturbed hlog)))
  | .remember memory rest =>
    have hkept : Host.Undisturbed t (t.remember ticket memory) :=
      ⟨rfl, rfl, (Host.Undisturbed.refl t).journal⟩
    exact .of_undisturbed hkept (finishes_run hq ticket rest hk _ (ht.trans (.of_undisturbed hkept)))
  | .ask q next =>
    rw [Script.Keeps] at hk
    simp only [Script.run_ask]
    refine (hq q t hk.1.1 ht).bind (g := fun d o => if o.1 = .panicked then (.panicked, o.2)
      else (next o.1).run (answer d) ticket o.2) fun o ho => ?_
    split
    · exact .quiet (fun _ => rfl) (Host.Undisturbed.refl o.2)
    · exact finishes_run hq ticket (next o.1) (hk.2 o.1) o.2 (ht.trans ho)

theorem absorb_missing (c : Context) (o : Outcome) : Hook.absorb .missing c o = c := by
  cases o <;> rfl

theorem finishes_dispatchTo
    (hq : ∀ q t, P c q → s.Precedes t → Finishes (fun d => answer d q t) t)
    (rs : List Registration) (hr : ∀ r ∈ rs, r.Inquires P)
    (ht : s.Precedes t) :
    Finishes (fun d => Host.dispatchTo (answer d) .missing rs c t) t := by
  induction rs generalizing t with
  | nil => exact .quiet (fun _ => rfl) (Host.Undisturbed.refl t)
  | cons r rs ih =>
    have hlog : Host.Undisturbed t (t.log (.called r.ticket r.plugin.info.name (.missing c))) :=
      t.undisturbed_log trivial
    have hcall : Finishes (fun d => t.call (answer d) r.ticket r.plugin (.missing c)) t :=
      .of_undisturbed hlog (finishes_run hq r.ticket _
        (hr r List.mem_cons_self _ (.missing c)) _ (ht.trans (.of_undisturbed hlog)))
    refine hcall.bind (g := fun d o =>
      Host.dispatchTo (answer d) .missing rs (Hook.absorb .missing c o.1) o.2) fun o ho => ?_
    rw [absorb_missing]
    exact ih (fun r' hr' => hr r' (List.mem_cons_of_mem _ hr')) (ht.trans ho)

theorem finishes_found (h : s.Inquires P) (hrep : reported? Host.refuse key args s = none) :
    Finishes (fun d => phrase (answer d) key args s) s := by
  obtain ⟨o, ho, hu⟩ := phrase_found h hrep
  exact .quiet (fun d => ho (answer d)) hu

theorem finishes_missed (h : s.Inquires P) (hrep : reported? Host.refuse key args s = some (c, u))
    (hmiss : Finishes (fun d => u.dispatch (answer d) .missing c) u) :
    Finishes (fun d => phrase (answer d) key args s) s := by
  obtain ⟨hu, hphrase⟩ := phrase_missed h hrep
  refine .of_undisturbed hu ?_
  simp only [hphrase]
  refine hmiss.bind (g := fun d o => finish (answer d) c (args.text?.getD key)
    (mapEngine o.2 (·.recordMissing c.locale (c.space.getD "") (c.name.getD "")
      (args.text?.getD (c.name.getD ""))))) fun o ho => ?_
  have hrecord := precedes_recordMissing o.2 c.locale (c.space.getD "") (c.name.getD "")
    (args.text?.getD (c.name.getD ""))
  have hregistry := (ho.trans hrecord).registry.trans hu.registry
  obtain ⟨o', ho', hlast⟩ := finish_quiet (h.of_registry hregistry) c (args.text?.getD key)
  exact ⟨0, o', fun d _ => ho' (answer d), (refusals_undisturbed hlast).trans rfl,
    hrecord.trans (.of_undisturbed hlast)⟩

theorem finishes_phrase (hr : WellFounded r) (hi : s.Inquires (s.Descends r)) (ht : s.Precedes t)
    (key : String) (args : Arguments) : Finishes (fun d => phrase (answer d) key args t) t := by
  have missed : ∀ c t u key args, s.Precedes t → reported? Host.refuse key args t = some (c, u) →
      Finishes (fun d => phrase (answer d) key args t) t := by
    -- by induction on what the plugins are told: requests inside are reported below it or found
    intro c
    induction c using hr.induction with
    | _ c ih =>
      intro t u key args ht hrep
      have ask : ∀ q t, s.Descends r c q → s.Precedes t → Finishes (fun d => answer d q t) t := by
        intro q t hq ht
        cases q with
        | phrase key args =>
          refine finishes_answer ?_
          cases hrep : reported? Host.refuse key args t with
          | none => exact finishes_found (hi.of_registry ht.registry) hrep
          | some p => exact ih p.1 (hq t p.1 p.2 ht hrep) t p.2 key args ht hrep
        | _ => exact hq.elim
      have hu := ht.trans (.of_undisturbed (phrase_missed (hi.of_registry ht.registry) hrep).1)
      refine finishes_missed (hi.of_registry ht.registry) hrep ?_
      refine finishes_dispatchTo ask u.enabled (fun r' hr' => ?_) hu
      exact hi.of_registry hu.registry r' (List.mem_filter.1 hr').1
  cases hrep : reported? Host.refuse key args t with
  | none => exact finishes_found (hi.of_registry ht.registry) hrep
  | some p => exact missed p.1 t p.2 key args ht hrep

theorem ends_of_descends (hr : WellFounded r) (hi : s.Inquires (s.Descends r)) (key : String)
    (args : Arguments) : s.Ends key args := by
  obtain ⟨depth, o, ho, hrefusals, -⟩ := finishes_phrase hr hi (.refl s) key args
  exact ⟨depth, o, ho, hrefusals⟩

/-! ### Requests that lead in circles -/

variable {places : Set (String × String × String)} {depth : Nat}

/-- Nothing is stored under the whole name at any of the places. -/
def Vacant (places : Set (String × String × String)) (s : Service) : Prop :=
  ∀ l n k, (l, n, k) ∈ places → s.engine.store.flat? l n k = none

/-- The request is for a text that is missing at one of the places, as long as nothing is stored at
any of them. -/
def Into (s : Service) (places : Set (String × String × String)) : Request → Prop
  | .phrase key args => ∀ t, s.Precedes t → t.Vacant places →
      ∃ c u, reported? Host.refuse key args t = some (c, u) ∧ c.place ∈ places
  | _ => False

/-- For a key that is missing at one of the places some plugin asks for another one. -/
def Circles (s : Service) (places : Set (String × String × String)) : Prop :=
  ∀ c : Context, c.place ∈ places → ∃ r ∈ s.enabled, ∀ memory,
    (r.plugin.respond memory (.missing c)).AsksFor (s.Into places)

/-- From `s` to `t` texts were asked for, and the places are as vacant as before unless something
was refused. -/
structure Strays (places : Set (String × String × String)) (s t : Service) : Prop where
  precedes : s.Precedes t
  refusals : s.refusals ≤ t.refusals
  vacant : s.Vacant places → t.Vacant places ∨ s.refusals < t.refusals

theorem Strays.of_undisturbed (h : Host.Undisturbed s t) : Strays places s t := by
  refine ⟨.of_undisturbed h, Nat.le_of_eq (refusals_undisturbed h).symm, fun hv => .inl ?_⟩
  unfold Vacant
  rw [h.engine]
  exact hv

theorem Strays.trans (h : Strays places s t) (h' : Strays places t u) : Strays places s u := by
  refine ⟨h.precedes.trans h'.precedes, Nat.le_trans h.refusals h'.refusals, fun hv => ?_⟩
  rcases h.vacant hv with hv | hlt
  · rcases h'.vacant hv with hv | hlt
    · exact .inl hv
    · exact .inr (Nat.lt_of_le_of_lt h.refusals hlt)
  · exact .inr (Nat.lt_of_lt_of_le hlt h'.refusals)

/-- Something is refused along the way if it is refused at the end, where the places are vacant. -/
theorem Strays.lt_trans (h : Strays places s t) (hv : s.Vacant places)
    (hr : t.refusals ≤ u.refusals) (h' : t.Vacant places → t.refusals < u.refusals) :
    s.refusals < u.refusals := by
  rcases h.vacant hv with hv | hlt
  · exact Nat.lt_of_le_of_lt h.refusals (h' hv)
  · exact Nat.lt_of_lt_of_le hlt hr

/-- What is to be shown of requests for texts at every depth. -/
structure Overruns (s : Service) (places : Set (String × String × String))
    (answer : Handler Engine) : Prop where
  strays : ∀ q t, q.IsPhrase → s.Precedes t → Strays places t (answer q t).2
  lt : ∀ q t, s.Into places q → s.Precedes t → t.Vacant places →
    t.refusals < refusals (answer q t).2
  answered : ∀ q t, q.IsPhrase → (answer q t).1 ≠ .panicked

variable {inner : Handler Engine}

theorem strays_run (ho : Overruns s places inner) (ticket : Nat) (script : Script)
    (hk : script.Keeps Request.IsPhrase) (ht : s.Precedes t) :
    Strays places t (script.run inner ticket t).2 := by
  refine script.run_frame (R := fun t u => s.Precedes t → Strays places t u) ?_ ?_ ?_ ?_ ?_ hk t ht
  · exact fun t _ => .of_undisturbed (Host.Undisturbed.refl t)
  · exact fun h h' ht => (h ht).trans (h' (ht.trans (h ht).precedes))
  · exact fun entry t _ => .of_undisturbed (t.undisturbed_log trivial)
  · exact fun memory t _ => .of_undisturbed ⟨rfl, rfl, (Host.Undisturbed.refl t).journal⟩
  · exact fun q t hq ht => ho.strays q t hq ht

theorem refusals_lt_run (ho : Overruns s places inner) (ticket : Nat) (script : Script)
    (hk : script.Keeps Request.IsPhrase) (ha : script.AsksFor (s.Into places)) (t : Service)
    (ht : s.Precedes t) (hv : t.Vacant places) :
    t.refusals < refusals (script.run inner ticket t).2 := by
  match script with
  | .finish o => exact ha.elim
  | .note entry rest =>
    have hlog : Host.Undisturbed t (t.log (.noted entry)) := t.undisturbed_log trivial
    have hrest := refusals_lt_run ho ticket rest hk ha (t.log (.noted entry))
      (ht.trans (.of_undisturbed hlog)) hv
    rw [refusals_undisturbed hlog] at hrest
    exact hrest
  | .remember memory rest =>
    have hkept : Host.Undisturbed t (t.remember ticket memory) :=
      ⟨rfl, rfl, (Host.Undisturbed.refl t).journal⟩
    have hrest := refusals_lt_run ho ticket rest hk ha (t.remember ticket memory)
      (ht.trans (.of_undisturbed hkept)) hv
    rw [refusals_undisturbed hkept] at hrest
    exact hrest
  | .ask q next =>
    rw [Script.Keeps] at hk
    rw [Script.AsksFor] at ha
    have hasked := ho.strays q t hk.1.1 ht
    have hlater := ht.trans hasked.precedes
    have hrest := strays_run ho ticket (next (inner q t).1) (hk.2 _) hlater
    rw [Script.run_ask, if_neg (ho.answered q t hk.1.1)]
    -- where it is a later request, this one left the places vacant unless something was refused
    rcases ha with hinto | ha
    · exact Nat.lt_of_lt_of_le (ho.lt q t hinto ht hv) hrest.refusals
    · exact hasked.lt_trans hv hrest.refusals fun hv =>
        refusals_lt_run ho ticket (next (inner q t).1) (hk.2 _) (ha _) _ hlater hv

theorem strays_call (ho : Overruns s places inner) {r : Registration}
    (hr : r.Inquires fun _ => Request.IsPhrase) (c : Context) (ht : s.Precedes t) :
    Strays places t (t.call inner r.ticket r.plugin (.missing c)).2 := by
  have hlog : Host.Undisturbed t (t.log (.called r.ticket r.plugin.info.name (.missing c))) :=
    t.undisturbed_log trivial
  exact (Strays.of_undisturbed hlog).trans (strays_run ho r.ticket _ (hr _ (.missing c))
    (ht.trans (.of_undisturbed hlog)))

theorem refusals_lt_call (ho : Overruns s places inner) {r : Registration}
    (hr : r.Inquires fun _ => Request.IsPhrase)
    (ha : ∀ memory, (r.plugin.respond memory (.missing c)).AsksFor (s.Into places))
    (ht : s.Precedes t) (hv : t.Vacant places) :
    t.refusals < refusals (t.call inner r.ticket r.plugin (.missing c)).2 := by
  have hlog : Host.Undisturbed t (t.log (.called r.ticket r.plugin.info.name (.missing c))) :=
    t.undisturbed_log trivial
  have hrun := refusals_lt_run ho r.ticket _ (hr _ (.missing c))
    (ha (t.memory r.ticket r.plugin.memory)) _ (ht.trans (.of_undisturbed hlog)) hv
  rw [refusals_undisturbed hlog] at hrun
  exact hrun

theorem strays_dispatchTo (ho : Overruns s places inner) (rs : List Registration)
    (hr : ∀ r ∈ rs, r.Inquires fun _ => Request.IsPhrase) (c : Context) (ht : s.Precedes t) :
    Strays places t (Host.dispatchTo inner .missing rs c t).2 := by
  induction rs generalizing c t with
  | nil => exact .of_undisturbed (Host.Undisturbed.refl t)
  | cons r rs ih =>
    have hcall := strays_call ho (hr r List.mem_cons_self) c ht
    exact hcall.trans (ih (fun r' hr' => hr r' (List.mem_cons_of_mem _ hr')) _
      (ht.trans hcall.precedes))

theorem refusals_lt_dispatchTo (ho : Overruns s places inner) (rs : List Registration)
    (hr : ∀ r ∈ rs, r.Inquires fun _ => Request.IsPhrase)
    (ha : ∃ r ∈ rs, ∀ memory, (r.plugin.respond memory (.missing c)).AsksFor (s.Into places))
    (ht : s.Precedes t) (hv : t.Vacant places) :
    t.refusals < refusals (Host.dispatchTo inner .missing rs c t).2 := by
  induction rs generalizing t with
  | nil => simp at ha
  | cons r rs ih =>
    have hcall := strays_call ho (hr r List.mem_cons_self) c ht
    have hlater := ht.trans hcall.precedes
    have hrs : ∀ r' ∈ rs, r'.Inquires fun _ => Request.IsPhrase :=
      fun r' hr' => hr r' (List.mem_cons_of_mem _ hr')
    have hrest := strays_dispatchTo ho rs hrs c hlater
    rw [Host.dispatchTo]
    dsimp only
    rw [absorb_missing]
    obtain ⟨r', hmem, ha⟩ := ha
    rcases List.mem_cons.1 hmem with rfl | hmem
    · have hfirst := refusals_lt_call ho (hr r' List.mem_cons_self) ha ht hv
      exact Nat.lt_of_lt_of_le hfirst hrest.refusals
    · exact hcall.lt_trans hv hrest.refusals fun hv => ih hrs ⟨r', hmem, ha⟩ hlater hv

theorem strays_recordMissing (hs : Strays places s t)
    (hlt : c.place ∈ places → s.Vacant places → s.refusals < t.refusals) (text : String) :
    Strays places s
      (mapEngine t (·.recordMissing c.locale (c.space.getD "") (c.name.getD "") text)) := by
  refine ⟨hs.precedes.trans (precedes_recordMissing t _ _ _ text), hs.refusals, fun hv => ?_⟩
  -- the placeholder fills one of the places only if the key was missing there
  by_cases hplace : c.place ∈ places
  · exact .inr (hlt hplace hv)
  · refine (hs.vacant hv).imp_left fun hv l n k hk => ?_
    show (t.engine.recordMissing _ _ _ text).store.flat? l n k = none
    rw [Engine.recordMissing_store]
    split
    · exact hv l n k hk
    · rw [Store.flat?_set, if_neg]
      · exact hv l n k hk
      · rintro ⟨rfl, rfl, rfl⟩
        exact hplace hk

theorem strays_phrase (ho : Overruns s places inner)
    (hi : s.Inquires fun _ => Request.IsPhrase) (hc : s.Circles places) (key : String)
    (args : Arguments) (ht : s.Precedes t) :
    Strays places t (phrase inner key args t).2 ∧
      ∀ c u, reported? Host.refuse key args t = some (c, u) → c.place ∈ places →
        t.Vacant places → t.refusals < refusals (phrase inner key args t).2 := by
  have hit := hi.of_registry ht.registry
  cases hrep : reported? Host.refuse key args t with
  | none =>
    obtain ⟨o, hphrase, hu⟩ := phrase_found hit hrep
    rw [hphrase]
    exact ⟨.of_undisturbed hu, fun c u h => by simp at h⟩
  | some p =>
    obtain ⟨c, u⟩ := p
    obtain ⟨hu, hphrase⟩ := phrase_missed hit hrep
    have hsu := ht.trans (.of_undisturbed hu)
    have henabled : u.enabled = s.enabled := by
      unfold Host.enabled
      rw [hsu.registry]
    have hrs : ∀ r ∈ u.enabled, r.Inquires fun _ => Request.IsPhrase := fun r hr =>
      hi.of_registry hsu.registry r (List.mem_filter.1 hr).1
    have htold := strays_dispatchTo ho u.enabled hrs c hsu
    have hlt : c.place ∈ places → u.Vacant places →
        u.refusals < refusals (u.dispatch inner .missing c).2 := by
      intro hplace hv
      have ha := hc c hplace
      rw [← henabled] at ha
      exact refusals_lt_dispatchTo ho u.enabled hrs ha hsu hv
    have hrecord := strays_recordMissing htold hlt (args.text?.getD (c.name.getD ""))
    obtain ⟨o, ho, hlast⟩ := finish_quiet (hi.of_registry (hsu.trans hrecord.precedes).registry) c
      (args.text?.getD key)
    have hall : Strays places t o.2 :=
      (Strays.of_undisturbed hu).trans (hrecord.trans (.of_undisturbed hlast))
    have hcall : phrase inner key args t = o := (hphrase inner).trans (ho inner)
    rw [hcall]
    refine ⟨hall, fun c' u' h hplace hv => ?_⟩
    obtain ⟨rfl, rfl⟩ := Prod.mk.inj (Option.some.inj h)
    have hvacant : u.Vacant places := by
      unfold Vacant
      rw [hu.engine]
      exact hv
    calc
      t.refusals = u.refusals := (refusals_undisturbed hu).symm
      _ < refusals (u.dispatch inner .missing c).2 := hlt hplace hvacant
      _ = refusals o.2 := (refusals_undisturbed hlast).symm

theorem refusals_refuse (q : Request) (t : Service) :
    refusals (Host.refuse q t).2 = t.refusals + 1 := by
  show ((t.journal ++ [Event.refused q]).filterMap Event.refused?).length = _
  rw [List.filterMap_append, List.length_append]
  rfl

theorem overruns_answer (hi : s.Inquires fun _ => Request.IsPhrase) (hc : s.Circles places)
    (depth : Nat) : Overruns s places (answer depth) := by
  induction depth with
  | zero =>
    have hlt : ∀ q (t : Service), t.refusals < refusals (answer 0 q t).2 := by
      intro q t
      have hone : refusals (answer 0 q t).2 = t.refusals + 1 := refusals_refuse q t
      omega
    refine ⟨fun q t _ _ => ?_, fun q t _ _ _ => hlt q t, fun q t _ h => nomatch h⟩
    exact ⟨⟨rfl, rfl, rfl, fun _ _ _ h => h⟩, Nat.le_of_lt (hlt q t), fun _ => .inr (hlt q t)⟩
  | succ depth ih =>
    refine ⟨fun q t hq ht => ?_, fun q t hq ht hv => ?_, fun q t hq => ?_⟩
    · cases q with
      | phrase key args => exact (strays_phrase ih hi hc key args ht).1
      | _ => exact hq.elim
    · cases q with
      | phrase key args =>
        obtain ⟨c, u, hrep, hplace⟩ := hq t ht hv
        exact (strays_phrase ih hi hc key args ht).2 c u hrep hplace hv
      | _ => exact hq.elim
    · cases q with
      | phrase key args => exact fun h => nomatch h
      | _ => exact hq.elim

theorem refusals_lt_of_circles (hi : s.Inquires fun _ => Request.IsPhrase)
    (hc : s.Circles places) (hv : s.Vacant places)
    (hrep : reported? Host.refuse key args s = some (c, u)) (hplace : c.place ∈ places)
    (depth : Nat) : s.refusals < refusals (phrase (answer depth) key args s).2 :=
  (strays_phrase (overruns_answer hi hc depth) hi hc key args (.refl s)).2 c u hrep hplace hv

/-! ### Plugins that patch nothing -/

theorem idle_of_alone {p : Plugin} (hr : s.registry = [⟨0, p, {}⟩])
    (hp : ∀ memory c, p.respond memory (.before c) = .finish .nothing) :
    ∀ r ∈ s.registry, r.Idle := by
  intro r h
  rw [hr, List.mem_singleton] at h
  rw [h]
  exact hp

theorem dispatch_idle (h : ∀ r ∈ s.registry, r.Idle) (inner : Handler Engine) (c : Context) :
    (s.dispatch inner .before c).1 = c ∧ (s.dispatch inner .before c).2.engine = s.engine := by
  have idle : ∀ (rs : List Registration) (t : Service), (∀ r ∈ rs, r.Idle) →
      (Host.dispatchTo inner .before rs c t).1 = c := by
    intro rs
    induction rs with
    | nil => exact fun t _ => rfl
    | cons r rs ih =>
      intro t hrs
      have hcall : (t.call inner r.ticket r.plugin (.before c)).1 = .nothing := by
        unfold Host.call
        dsimp only
        rw [hrs r List.mem_cons_self]
        rfl
      rw [Host.dispatchTo]
      dsimp only [Hook.call]
      rw [hcall]
      exact ih _ fun r' hr' => hrs r' (List.mem_cons_of_mem _ hr')
  have hquiet : ∀ r ∈ s.registry, r.QuietTo .before := by
    intro r hr memory c
    show (r.plugin.respond memory (.before c)).Quiet
    rw [h r hr]
    exact trivial
  exact ⟨idle s.enabled s fun r hr => h r (List.mem_filter.1 hr).1,
    (Host.dispatch_undisturbed inner hquiet c).engine⟩

/-- With such plugins, the key that is looked up is the one that was asked for. -/
theorem reported_idle (h : ∀ r ∈ s.registry, r.Idle) (inner : Handler Engine) (key : String)
    (args : Arguments) :
    reported? inner key args s =
      if s.engine.template? key args = none then
        some ({ contextFor s.engine key args with result := some (args.text?.getD key) },
          (s.dispatch inner .before (contextFor s.engine key args)).2)
      else none := by
  obtain ⟨hcontext, hengine⟩ := dispatch_idle h inner (contextFor s.engine key args)
  unfold reported?
  generalize s.dispatch inner .before (contextFor s.engine key args) = found
    at hcontext hengine ⊢
  obtain ⟨c, u⟩ := found
  dsimp only at hcontext hengine ⊢
  have hfound : s.engine.findTemplate (contextFor s.engine key args).locale
      ((contextFor s.engine key args).space.getD "") ((contextFor s.engine key args).name.getD "")
      (countOf (contextFor s.engine key args).vars) = s.engine.template? key args := rfl
  rw [hcontext, hengine, hfound]
  cases s.engine.template? key args with
  | some template => rfl
  | none => rfl

theorem template?_eq_none (hfallback : s.engine.settings.fallback = none)
    (hcount : countOf args.vars = none)
    (hflat : s.engine.store.flat? s.engine.locale (s.engine.sought key).space
      (s.engine.sought key).name = none)
    (hname : '.' ∉ (s.engine.sought key).name.toList) : s.engine.template? key args = none := by
  have hget := Store.get_eq_none hflat hname
  have hchain : s.engine.chain s.engine.locale = [s.engine.locale] := by
    unfold Engine.chain
    rw [hfallback]
  unfold Engine.template? Engine.findTemplate Engine.lookup
  rw [hcount]
  dsimp only
  rw [hchain, List.findSome?_cons, hget]
  rfl

/-! ### Which calls end -/

/-- Where plugins ask for texts only when a key is missing, a call ends if these requests lead down
a well-founded relation of what the plugins are told. It does not end if it misses a key at one of
some places where nothing is stored, and for each of them the plugins ask for another. -/
theorem nested_calls (s : Service) :
    (∀ r : Context → Context → Prop, WellFounded r → s.Inquires (s.Descends r) →
      ∀ key args, s.Ends key args) ∧
    ∀ places : Set (String × String × String), s.Inquires (fun _ => Request.IsPhrase) →
      s.Circles places → s.Vacant places →
      ∀ key args c u, reported? Host.refuse key args s = some (c, u) → c.place ∈ places →
        ∀ depth, s.refusals < refusals (phrase (answer depth) key args s).2 :=
  ⟨fun _ hr hi key args => ends_of_descends hr hi key args,
    fun _ hi hc hv _ _ _ _ hrep hplace depth => refusals_lt_of_circles hi hc hv hrep hplace depth⟩

/-- A plugin that asks for a second text while a first one is missing. -/
def follower : Plugin where
  info := { name := "follower", kind := .processor }
  defaultConfig := {}
  memory := ""
  respond _ call :=
    match call with
    | .missing c =>
      if c.name = some "a" then .ask (.phrase "ns:b" {}) fun _ => .finish .nothing
      else .finish .nothing
    | _ => .finish .nothing

def followed : Service :=
  (create { settings := { locale := "en" }, plugins := [(follower, none)] }).2

def Follows (c' c : Context) : Prop :=
  c'.name = some "b" ∧ c.name = some "a"

theorem follows_wf : WellFounded Follows := by
  refine Subrelation.wf (fun {c' c} h => ?_)
    (measure fun c : Context => if c.name = some "a" then 1 else 0).wf
  show (if c'.name = some "a" then 1 else 0) < if c.name = some "a" then 1 else 0
  rw [h.1, h.2]
  decide

theorem inquires_followed : followed.Inquires (followed.Descends Follows) := by
  intro r hr memory call
  obtain rfl : r = ⟨0, follower, {}⟩ := List.mem_singleton.1 hr
  cases call with
  | missing c =>
    show Script.Keeps _ (if c.name = some "a" then _ else _)
    split
    · rename_i hname
      refine ⟨⟨fun t c' u ht hrep => ⟨?_, hname⟩, trivial⟩, fun _ => trivial⟩
      have hidle : ∀ r ∈ t.registry, r.Idle :=
        idle_of_alone (ht.registry.trans rfl) fun _ _ => rfl
      rw [reported_idle hidle] at hrep
      split at hrep
      · obtain ⟨rfl, -⟩ := Prod.mk.inj (Option.some.inj hrep)
        show some (t.engine.sought "ns:b").name = some "b"
        rw [ht.sought]
        decide +kernel
      · simp at hrep
    · trivial
  | _ => exact trivial

theorem inquires_asking : asking.Inquires fun _ => Request.IsPhrase := by
  intro r hr memory call
  obtain rfl : r = ⟨0, askingPlugin, {}⟩ := List.mem_singleton.1 hr
  cases call with
  | missing c =>
    refine ⟨⟨trivial, trivial⟩, fun a => ?_⟩
    cases a <;> exact trivial
  | _ => exact trivial

theorem circles_asking (h : ("en", "ns", "a") ∈ places) : asking.Circles places := by
  intro c _
  refine ⟨⟨0, askingPlugin, {}⟩, List.mem_singleton.2 rfl, fun memory => Or.inl ?_⟩
  intro t ht hv
  have hidle : ∀ r ∈ t.registry, r.Idle :=
    idle_of_alone (ht.registry.trans rfl) fun _ _ => rfl
  have hlocale : t.engine.locale = "en" := ht.locale
  have hsought : t.engine.sought "ns:a" = ⟨"ns", "a"⟩ := by
    rw [ht.sought]
    decide +kernel
  have hmissing : t.engine.template? "ns:a" { fallback := some "Supplied" } = none := by
    refine template?_eq_none ?_ rfl ?_ ?_
    · rw [ht.settings]
      rfl
    · rw [hlocale, hsought]
      exact hv "en" "ns" "a" h
    · rw [hsought]
      decide
  rw [reported_idle hidle, if_pos hmissing]
  refine ⟨_, _, rfl, ?_⟩
  show (t.engine.locale, (t.engine.sought "ns:a").space, (t.engine.sought "ns:a").name) ∈ places
  rw [hlocale, hsought]
  exact h

theorem vacant_asking (places : Set (String × String × String)) : asking.Vacant places := by
  intro l n k _
  rfl

/-- The plugin that asks for a second text comes to an end; the one that asks for the same text again
and again does not, from whichever key it sets out. -/
theorem nested_calls_followed :
    followed.Ends "ns:a" {} ∧
      ∀ depth, asking.refusals < refusals (phrase (answer depth) "ns:b" {} asking).2 := by
  refine ⟨(nested_calls followed).1 Follows follows_wf inquires_followed "ns:a" {}, fun depth => ?_⟩
  refine (nested_calls asking).2 {("en", "ns", "a"), ("en", "ns", "b")} inquires_asking
    (circles_asking (Or.inl rfl)) (vacant_asking _) "ns:b" {} _ _ rfl (Or.inr ?_) depth
  show Context.place _ = ("en", "ns", "b")
  decide +kernel

/-- No depth is enough for a plugin that asks for the very key that is missing. -/
theorem nested_calls_endless : ¬ asking.Ends "ns:a" { fallback := some "Default" } := by
  rintro ⟨depth, o, ho, hrefusals⟩
  have hcircles : asking.Circles {("en", "ns", "a")} := circles_asking rfl
  have hlt : asking.refusals <
      refusals (phrase (answer depth) "ns:a" { fallback := some "Default" } asking).2 := by
    refine refusals_lt_of_circles inquires_asking hcircles (vacant_asking _) rfl ?_ depth
    show Context.place _ = ("en", "ns", "a")
    decide +kernel
  rw [ho depth (Nat.le_refl _), hrefusals] at hlt
  exact absurd hlt (Nat.lt_irrefl _)

end Service

end Phrasebook
