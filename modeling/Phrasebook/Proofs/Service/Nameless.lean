import Phrasebook.Proofs.Key.Halves
import Phrasebook.Proofs.Plugin.Quiet
import Phrasebook.Proofs.Service.Locales
import Phrasebook.Proofs.Service.Repetition

/-!
# Missing keys without a name

A call that finds no text stores a placeholder under the name that it looked for, unless the name is
empty. `misses_recorded` says when that is: the name that is read off a key is empty only where
nothing is left of the key, but plugins may have another name looked up, and an empty one.
-/

namespace Phrasebook

/-- The plugin leaves the name that is looked up as it is. -/
def Registration.KeepsName (r : Registration) : Prop :=
  r.Patches fun p => p.name = none

theorem Host.name_dispatch {ε : Type} (answer : Handler ε) {h : Host ε}
    (hr : ∀ r ∈ h.enabled, r.KeepsName) (c : Context) :
    (h.dispatch answer .before c).1.name = c.name := by
  have hf : ∀ (c : Context) (p : Patch), p.name = none → (c.apply p).name = c.name := by
    intro c p hp
    show p.name.or c.name = c.name
    rw [hp]
    rfl
  exact dispatchTo_patches hf answer hr c h

namespace Service

variable {answer : Handler Engine} {c : Context} {s : Service} {l n k text : String}

theorem miss_nameless (answer : Handler Engine) (c : Context) (n text : String) (s : Service) :
    miss answer c n "" text s = (s.dispatch answer .missing c).2 :=
  mapEngine_recordMissing_empty _ c.locale n text

theorem get_miss (h : k ≠ "") :
    (miss answer c n k text s).engine.store.get c.locale n k = some text := by
  unfold miss
  rw [mapEngine_engine, Engine.recordMissing_store, if_neg h, Store.get_set_self]

/-- Where plugins ask for nothing when they are told of a missing key, a miss changes something
exactly if the key has a name. -/
theorem engine_miss_eq_iff (hq : ∀ r ∈ s.registry, r.QuietTo .missing)
    (h : s.engine.store.get c.locale n k = none) :
    (miss answer c n k text s).engine = s.engine ↔ k = "" := by
  refine ⟨fun he => ?_, ?_⟩
  · by_contra hk
    have hget : (miss answer c n k text s).engine.store.get c.locale n k = some text := get_miss hk
    rw [he, h] at hget
    simp at hget
  · rintro rfl
    rw [miss_nameless]
    exact (Host.dispatch_undisturbed answer hq c).engine

theorem name_asked (answer : Handler Engine) (key : String) (args : Arguments)
    (hr : ∀ r ∈ s.enabled, r.KeepsName) :
    (rendering answer key args s).asked.name =
      some (Key.parse s.engine.settings.defaultSpace s.engine.locale key).name := by
  have hname := Host.name_dispatch answer hr (contextFor s.engine key args)
  rw [(rendering_spec answer key args s).1] at hname
  exact hname

/-- A key is cut without loss, and its name is empty only if nothing is left of the key. A call that
finds no text records a placeholder under the name that is looked up, and nothing at all if this name
is empty. Unless plugins have another name looked up, that is the name read off the key. -/
theorem misses_recorded (key : String) :
    (∀ default locale, let k := Key.parse default locale key
      Key.Halves default locale (Key.normalize key) k ∧ (k.name = "" ↔ Key.normalize key = "")) ∧
    ∀ (answer : Handler Engine) (args : Arguments) (s : Service),
      let r := rendering answer key args s
      let l := r.asked.locale
      let n := r.asked.space.getD ""
      let k := r.asked.name.getD ""
      phrase answer key args s = finish answer r.context r.template r.state ∧
      (r.searched.engine.findTemplate l n k (countOf r.asked.vars) = none →
        r.searched.engine.store.get l n k = none ∧
        (k = "" → r.state = (r.searched.dispatch answer .missing r.context).2) ∧
        (k ≠ "" → r.state.engine.store.get l n k = some (args.text?.getD k)) ∧
        ((∀ q ∈ r.searched.registry, q.QuietTo .missing) →
          (r.state.engine = r.searched.engine ↔ k = ""))) ∧
      ((∀ q ∈ s.enabled, q.KeepsName) → (k = "" ↔ Key.normalize key = "")) := by
  refine ⟨fun default locale =>
    ⟨Key.halves_parse default locale key, Key.name_parse_eq_empty_iff default locale key⟩, ?_⟩
  intro answer args s r l n k
  obtain ⟨-, -, hstate⟩ := rendering_spec answer key args s
  have hlocale : r.context.locale = l := (context_rendering answer key args s).1
  refine ⟨phrase_eq_rendering answer key args s, fun hf => ?_, fun hkeep => ?_⟩
  · have hmiss : r.state = miss answer r.context n k (args.text?.getD k) r.searched := by
      rcases hstate with ⟨hfound, -⟩ | ⟨-, -, hmiss⟩
      · exact absurd (hf.symm.trans hfound) (by simp)
      · exact hmiss
    have hget : r.searched.engine.store.get l n k = none :=
      Engine.get_of_findTemplate_eq_none hf
    refine ⟨hget, fun hk => ?_, fun hk => ?_, fun hq => ?_⟩
    · rw [hmiss, hk]
      exact miss_nameless answer r.context n _ r.searched
    · rw [hmiss, ← hlocale]
      exact get_miss hk
    · rw [← hlocale] at hget
      rw [hmiss]
      exact engine_miss_eq_iff hq hget
  · have hname : k = (Key.parse s.engine.settings.defaultSpace s.engine.locale key).name := by
      show r.asked.name.getD "" = _
      rw [name_asked answer key args hkeep]
      rfl
    rw [hname]
    exact Key.name_parse_eq_empty_iff _ _ key

/-- A plugin that changes what is looked up. -/
def redirecting (p : Patch) : Plugin :=
  Scripted.plugin { name := "p", kind := .processor } {} [("before", { patch := some { patch := p } })]

/-- A phrase book with such a plugin, in which missing keys are saved and namespaces are loaded. -/
def redirected (p : Patch) : Service :=
  (create {
    settings := { locale := "en", saveMissing := true }
    plugins := [(redirecting p, none)]
    hasLoader := true
    hasSaver := true }).2

theorem registry_redirected (p : Patch) :
    (redirected p).registry = [⟨0, redirecting p, {}⟩] := by
  have hvalid : ({ locale := "en", saveMissing := true } : Settings).validate = .ok () := by
    decide +kernel
  unfold redirected create
  dsimp only
  rw [hvalid]
  rfl

theorem quietTo_redirected (p : Patch) (hook : Hook) :
    ∀ q ∈ (redirected p).registry, q.QuietTo hook := by
  intro q hq
  rw [registry_redirected, List.mem_singleton] at hq
  subst hq
  intro memory c
  cases hook <;> exact trivial

/-- The name stays while another namespace is searched. -/
theorem misses_recorded_menu :
    let s := redirected { space := some "menu" }
    let r := rendering (Service.answer 1) " home..title" {} s
    (∀ q ∈ s.enabled, q.KeepsName) ∧ (∀ q ∈ r.searched.registry, q.QuietTo .missing) ∧
      r.searched.engine.findTemplate "en" "menu" "title" none = none ∧
      r.state.engine.store.get "en" "menu" "title" = some "title" ∧
      r.state.engine ≠ r.searched.engine ∧ Key.normalize " home..title" ≠ "" := by
  intro s r
  obtain ⟨-, hcalls⟩ := misses_recorded " home..title"
  obtain ⟨-, hmiss, hname⟩ := hcalls (Service.answer 1) {} s
  have hkeep : ∀ q ∈ s.enabled, q.KeepsName := by
    intro q hq
    have hmem : q ∈ s.registry := (List.mem_filter.1 hq).1
    rw [registry_redirected, List.mem_singleton] at hmem
    subst hmem
    intro memory c p hp
    obtain rfl := Outcome.patch.inj hp
    rfl
  have hquiet : ∀ q ∈ r.searched.registry, q.QuietTo .missing := by
    have hdispatch := Host.dispatch_undisturbed (Service.answer 1)
      (quietTo_redirected { space := some "menu" } .before) (contextFor s.engine " home..title" {})
    rw [(rendering_spec (Service.answer 1) " home..title" {} s).1] at hdispatch
    rw [hdispatch.registry]
    exact quietTo_redirected _ .missing
  have hnone : r.searched.engine.findTemplate "en" "menu" "title" none = none := by
    decide +kernel
  obtain ⟨-, -, hstored, hsame⟩ := hmiss hnone
  exact ⟨hkeep, hquiet, hnone, hstored (by decide +kernel),
    fun he => absurd ((hsame hquiet).1 he) (by decide +kernel),
    fun he => absurd ((hname hkeep).2 he) (by decide +kernel)⟩

/-- Something is left of the key, and nothing is recorded all the same: the name is patched away. -/
theorem nameless_by_patch :
    let s := redirected { name := some "" }
    let r := rendering (Service.answer 1) "ns:a" {} s
    let t := (phrase (Service.answer 1) "ns:a" {} s).2
    Key.normalize "ns:a" ≠ "" ∧ (Key.parse none "en" "ns:a").name = "a" ∧
      r.asked.space = some "ns" ∧ r.asked.name = some "" ∧
      r.searched.engine.findTemplate "en" "ns" "" none = none ∧
      t.engine.store.locales = [] ∧ t.engine.loading = [] ∧ t.engine.saving = [] ∧
      t.engine.tasks = [] :=
  ⟨by decide +kernel, by decide +kernel, by decide +kernel, by decide +kernel, by decide +kernel,
    by decide +kernel, by decide +kernel, by decide +kernel, by decide +kernel⟩

end Service

end Phrasebook
