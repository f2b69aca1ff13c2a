import Phrasebook.Plugin.Scripted
import Phrasebook.Proofs.Plugin.Frame
import Phrasebook.Proofs.Service.Run
import Phrasebook.Proofs.Service.Search

/-!
# The locales of a call

A call is about the locale in its context, which plugins may replace before the look-up. Messages
are rendered by the rules of the current locale of the phrase book all the same, since the renderer
has a locale of its own that follows the current one. `call_locales` says where each of the two
counts, and when they are one.
-/

namespace Phrasebook

/-- What the plugin patches before a look-up is of this kind. -/
def Registration.Patches (P : Patch → Prop) (r : Registration) : Prop :=
  ∀ memory c, (r.plugin.respond memory (.before c)).Ends fun o => ∀ p, o = .patch p → P p

/-- The plugin leaves the locale of a look-up as it is. -/
def Registration.KeepsLocale (r : Registration) : Prop :=
  ∀ memory c, (r.plugin.respond memory (.before c)).Ends fun o => ∀ p, o = .patch p → p.locale = none

namespace Host

variable {ε : Type}

/-- What no patch changes is the same after the plugins were asked. -/
theorem dispatchTo_patches {α : Type} {f : Context → α} {P : Patch → Prop}
    (hf : ∀ c p, P p → f (c.apply p) = f c) (answer : Handler ε) {rs : List Registration}
    (hr : ∀ r ∈ rs, r.Patches P) (c : Context) (h : Host ε) :
    f (dispatchTo answer .before rs c h).1 = f c := by
  induction rs generalizing c h with
  | nil => rfl
  | cons r rs ih =>
    have hends := Script.run_ends answer r.ticket _ (fun p hp => by simp at hp)
      (hr r List.mem_cons_self (h.memory r.ticket r.plugin.memory) c)
      (h.log (.called r.ticket r.plugin.info.name (.before c)))
    have habsorb : ∀ o : Outcome, (∀ p, o = .patch p → P p) →
        f (Hook.before.absorb c o) = f c := by
      intro o ho
      cases o with
      | patch p => exact hf c p (ho p rfl)
      | nothing => rfl
      | text s => rfl
      | failed message => rfl
      | panicked => rfl
    rw [dispatchTo]
    exact (ih (fun r' hr' => hr r' (List.mem_cons_of_mem _ hr')) _ _).trans (habsorb _ hends)

theorem locale_dispatchTo (answer : Handler ε) {rs : List Registration}
    (hr : ∀ r ∈ rs, r.KeepsLocale) (c : Context) (h : Host ε) :
    (dispatchTo answer .before rs c h).1.locale = c.locale := by
  have hf : ∀ (c : Context) (p : Patch), p.locale = none → (c.apply p).locale = c.locale := by
    intro c p hp
    show p.locale.getD c.locale = c.locale
    rw [hp]
    rfl
  exact dispatchTo_patches hf answer hr c h

end Host

theorem Engine.recordMissing_locales (e : Engine) (l n k text : String) :
    (e.recordMissing l n k text).settings = e.settings ∧
      (e.recordMissing l n k text).locale = e.locale ∧
      (e.recordMissing l n k text).formatLocale = e.formatLocale := by
  obtain ⟨saving, loading, tasks, hframe⟩ := e.recordMissing_frame l n k text
  rw [hframe]
  exact ⟨rfl, rfl, rfl⟩

namespace Service

variable {Q : Request → Prop} {s : Service} {p : ServicePlan}

/-! ### The locale of the renderer -/

/-- The renderer has the current locale for its own, and the settings are those of the plan. -/
structure Attuned (p : ServicePlan) (s : Service) : Prop where
  settings : s.engine.settings = p.settings
  locale : s.engine.formatLocale = s.engine.locale

/-- Nothing that depends on the current locale comes between the two. -/
theorem conduct_attuned (p : ServicePlan) : Conduct Q fun s t => Attuned p s → Attuned p t where
  refl := fun _ h => h
  trans := fun h h' hs => h' (h hs)
  quiet := by
    rintro s t he - ⟨hsettings, hlocale⟩
    rw [← he] at hsettings hlocale
    exact ⟨hsettings, hlocale⟩
  miss := by
    intro s t l n k count text _ h hs
    obtain ⟨hsettings, hlocale, hformat⟩ := t.engine.recordMissing_locales l n k text
    exact ⟨hsettings.trans (h hs).settings, hformat.trans ((h hs).locale.trans hlocale.symm)⟩
  install := fun _ _ hs => ⟨hs.settings, hs.locale⟩
  relocate := fun _ _ hs => ⟨hs.settings, rfl⟩

theorem Attuned.answer (hs : Attuned p s) (depth : Nat) (request : Request) :
    Attuned p (Service.answer depth request s).2 :=
  ((conduct_attuned p).answer_safe depth request s trivial request.keeps_true (obeys_true s)).1 hs

theorem Attuned.create (p : ServicePlan) : Attuned p (create p).2 :=
  ((conduct_attuned p).create p (fun q _ => q.1.keeps_true) (obeys_true _)).1 ⟨rfl, rfl⟩

theorem Attuned.endLoad (hs : Attuned p s) (l n : String) (r : LoadResult) :
    Attuned p (mapEngine s (·.endLoad l n r)) := by
  cases r <;> exact ⟨hs.settings, hs.locale⟩

theorem Attuned.step (hs : Attuned p s) (depth : Nat) (m : Move) :
    Attuned p (step depth s m) := by
  cases m with
  | request r => exact hs.answer (depth + 1) r
  | subscribe script => exact ⟨hs.settings, hs.locale⟩
  | unsubscribe ticket => exact ⟨hs.settings, hs.locale⟩
  | background available => exact ⟨hs.settings, hs.locale⟩
  | ask index =>
    unfold Service.step
    dsimp only
    split
    · exact ⟨hs.settings, hs.locale⟩
    · exact hs
  | loadEnds index r =>
    unfold Service.step
    dsimp only
    split
    · rename_i l n _
      by_cases hr : ∃ c, r = .found c
      · obtain ⟨c, rfl⟩ := hr
        rw [finishLoad_found]
        have hinstalled : Attuned p (mapEngine s (·.install l n c)) := ⟨hs.settings, hs.locale⟩
        have htell := (conduct_attuned p).tell ((conduct_attuned p).answer_safe depth) l n c _
          (obeys_true (mapEngine s (·.install l n c)))
        exact (htell.1 hinstalled).endLoad l n _
      · rw [finishLoad_of_not_found _ _ _ fun c hc => hr ⟨c, hc⟩]
        exact hs.endLoad l n r
    · exact hs
  | saveEnds index r =>
    unfold Service.step
    dsimp only
    split
    · rw [finishSave_eq]
      cases r <;> exact ⟨hs.settings, hs.locale⟩
    · exact hs

theorem Attuned.run (p : ServicePlan) (depth : Nat) (moves : List Move) :
    Attuned p (run depth moves (Service.create p).2) :=
  run_induction (Attuned p) (fun _ m (_ : True) hs => hs.step depth m) (fun _ _ => trivial)
    (.create p)

/-! ### The locale of a call -/

/-- A request other than to change the current locale. -/
def StaysPut : Request → Prop
  | .setLocale _ => False
  | _ => True

theorem conduct_staysPut : Conduct StaysPut fun s t => t.engine.locale = s.engine.locale where
  refl := fun _ => rfl
  trans := fun h h' => h'.trans h
  quiet := fun he _ => congrArg Engine.locale he
  miss := fun text _ h => (Engine.recordMissing_locales _ _ _ _ text).2.1.trans h
  install := fun _ _ => rfl
  relocate := fun _ hno => hno.elim

/-- What a call renders: the context and the phrase book in which a text is looked up, the text that
is used, and the context and the phrase book in which it is rendered. -/
structure Rendering where
  asked : Context
  searched : Service
  template : String
  context : Context
  state : Service

def rendering (answer : Handler Engine) (key : String) (args : Arguments) (s : Service) :
    Rendering :=
  let (c, u) := s.dispatch answer .before (contextFor s.engine key args)
  let space := c.space.getD ""
  let name := c.name.getD ""
  match u.engine.findTemplate c.locale space name (countOf c.vars) with
  | some template => ⟨c, u, template, c, u⟩
  | none =>
    let template := args.text?.getD key
    let c' := { c with result := some template }
    ⟨c, u, template, c', miss answer c' space name (args.text?.getD name) u⟩

theorem phrase_eq_rendering (answer : Handler Engine) (key : String) (args : Arguments)
    (s : Service) :
    let r := rendering answer key args s
    phrase answer key args s = finish answer r.context r.template r.state := by
  unfold phrase rendering
  generalize s.dispatch answer .before (contextFor s.engine key args) = found
  obtain ⟨c, u⟩ := found
  dsimp only
  cases u.engine.findTemplate c.locale (c.space.getD "") (c.name.getD "") (countOf c.vars) <;> rfl

/-- The way to what is rendered: the plugins are asked before the look-up, and where no text is found
they are told of the missing key. -/
theorem rendering_spec (answer : Handler Engine) (key : String) (args : Arguments) (s : Service) :
    let r := rendering answer key args s
    let space := r.asked.space.getD ""
    let name := r.asked.name.getD ""
    let found := r.searched.engine.findTemplate r.asked.locale space name (countOf r.asked.vars)
    s.dispatch answer .before (contextFor s.engine key args) = (r.asked, r.searched) ∧
      r.template = found.getD (args.text?.getD key) ∧
      (found = some r.template ∧ r.context = r.asked ∧ r.state = r.searched ∨
        found = none ∧ r.context = { r.asked with result := some r.template } ∧
          r.state = miss answer r.context space name (args.text?.getD name) r.searched) := by
  unfold rendering
  generalize s.dispatch answer .before (contextFor s.engine key args) = found
  obtain ⟨c, u⟩ := found
  dsimp only
  cases hf : u.engine.findTemplate c.locale (c.space.getD "") (c.name.getD "")
      (countOf c.vars) with
  | some template =>
    dsimp only
    rw [hf]
    exact ⟨rfl, rfl, .inl ⟨rfl, rfl, rfl⟩⟩
  | none =>
    dsimp only
    rw [hf]
    exact ⟨rfl, rfl, .inr ⟨rfl, rfl, rfl⟩⟩

/-- Between the look-up and the rendering only a result can be added to the context. -/
theorem context_rendering (answer : Handler Engine) (key : String) (args : Arguments) (s : Service) :
    let r := rendering answer key args s
    r.context.locale = r.asked.locale ∧ r.context.vars = r.asked.vars := by
  obtain ⟨-, -, hstate⟩ := rendering_spec answer key args s
  dsimp only
  rcases hstate with ⟨-, hcontext, -⟩ | ⟨-, hcontext, -⟩
  · rw [hcontext]
    exact ⟨rfl, rfl⟩
  · rw [hcontext]
    exact ⟨rfl, rfl⟩

theorem rendering_leads {R : Service → Service → Prop} (hc : Conduct Q R) (depth : Nat)
    (key : String) (args : Arguments) (s : Service) :
    let r := rendering (answer depth) key args s
    Leads Q R s r.state := by
  intro r
  obtain ⟨hbefore, -, hstate⟩ := rendering_spec (answer depth) key args s
  have hasked : Leads Q R s r.searched := by
    have hdispatch := hc.dispatch (hc.answer_safe depth) .before (contextFor s.engine key args) s
    rw [hbefore] at hdispatch
    exact hdispatch
  rcases hstate with ⟨-, -, hstate⟩ | ⟨hnone, -, hstate⟩
  · show Leads Q R s (rendering (answer depth) key args s).state
    rw [hstate]
    exact hasked
  · show Leads Q R s (rendering (answer depth) key args s).state
    rw [← (context_rendering (answer depth) key args s).1] at hnone
    rw [hstate]
    exact hc.leads_trans hasked (hc.missing (hc.answer_safe depth) _ hnone)

theorem Attuned.render (hs : Attuned p s) (hicu : p.settings.messageSyntax = .icu)
    (template : String) (vars : Vars) :
    s.engine.render template (some vars) =
      Icu.render ⟨s.engine.locale, p.settings.escapeHtml, vars⟩ template := by
  unfold Engine.render
  dsimp only
  rw [hs.settings, hs.locale, hicu]

/-- A text is looked up in the locale of the context, in plural forms of this locale, and the plugins
see this locale after the look-up. The clauses of a message are chosen by the rules of the current
locale at that time. As long as nobody changes the current locale meanwhile and no plugin replaces
the locale of the context, both are the current locale from before the call. -/
theorem call_locales (p : ServicePlan) (hicu : p.settings.messageSyntax = .icu) (depth : Nat)
    (moves : List Move) :
    Attuned p (run depth moves (create p).2) ∧
    ∀ s, Attuned p s →
      (∀ depth request, Attuned p (answer depth request s).2) ∧
      ∀ key args,
        let r := rendering (answer depth) key args s
        let l := r.asked.locale
        let name := r.asked.name.getD ""
        let rendered := match r.asked.vars with
          | none => r.template
          | some vars =>
            Icu.render ⟨r.state.engine.locale, p.settings.escapeHtml, vars⟩ r.template
        let told := r.state.dispatch (answer depth) .after
          { r.context with locale := l, result := some rendered }
        s.dispatch (answer depth) .before (contextFor s.engine key args) = (r.asked, r.searched) ∧
        phrase (answer depth) key args s = (told.1.result.getD "", told.2) ∧
        r.template = ((r.searched.engine.places l name (countOf r.asked.vars)).findSome?
          fun place => r.searched.engine.store.get place.2 (r.asked.space.getD "") place.1).getD
            (args.text?.getD key) ∧
        (s.Obeys StaysPut → r.state.engine.locale = s.engine.locale) ∧
        ((∀ q ∈ s.enabled, q.KeepsLocale) → l = s.engine.locale) := by
  refine ⟨.run p depth moves, fun s hs => ⟨fun depth request => hs.answer depth request, ?_⟩⟩
  intro key args r l name rendered told
  obtain ⟨hbefore, htemplate, -⟩ := rendering_spec (answer depth) key args s
  have hcontext : r.context.locale = l ∧ r.context.vars = r.asked.vars :=
    context_rendering (answer depth) key args s
  have hattuned : Attuned p r.state :=
    (rendering_leads (conduct_attuned p) depth key args s (obeys_true s)).1 hs
  have hrendered : r.state.engine.render r.template r.context.vars = rendered := by
    rw [hcontext.2]
    show _ = match r.asked.vars with | none => _ | some vars => _
    cases r.asked.vars with
    | none => rfl
    | some vars => exact hattuned.render hicu _ vars
  refine ⟨hbefore, ?_, ?_, fun ho => ?_, fun hkeep => ?_⟩
  · rw [phrase_eq_rendering]
    show finish _ r.context r.template r.state = _
    unfold finish
    dsimp only
    rw [hrendered]
    show _ = (told.1.result.getD "", told.2)
    unfold told
    rw [← hcontext.1]
  · rw [← Engine.findTemplate_eq_places]
    exact htemplate
  · exact (rendering_leads conduct_staysPut depth key args s ho).1
  · have hlocale := Host.locale_dispatchTo (answer depth) hkeep (contextFor s.engine key args) s
    have hdispatch : (Host.dispatchTo (answer depth) .before s.enabled
        (contextFor s.engine key args) s).1 = r.asked := congrArg Prod.fst hbefore
    rw [hdispatch] at hlocale
    exact hlocale

/-- Polish has a form of its own for three items, and English has not. -/
def polishMessage : String :=
  "\x7bcount, plural, one \x7bone\x7d few \x7bfew\x7d many \x7bmany\x7d other \x7bother\x7d\x7d"

def threeItems : Arguments where
  vars := some [("count", .int 3)]

def icuPlan (plugins : List (Plugin × Option PluginConfig)) : ServicePlan where
  settings := { locale := "en", messageSyntax := .icu }
  plugins := plugins

def polishMoves : List Move :=
  [.request (.addCatalog "pl" "ns" [("items", .text polishMessage)]), .request (.setLocale "pl")]

theorem call_locales_polish :
    let s := run 1 polishMoves (create (icuPlan [])).2
    let r := rendering (answer 1) "ns:items" threeItems s
    (icuPlan []).settings.messageSyntax = .icu ∧ Attuned (icuPlan []) s ∧ s.Obeys StaysPut ∧
      r.asked.locale = "pl" ∧ r.state.engine.locale = "pl" ∧
      (phrase (answer 1) "ns:items" threeItems s).1 = "few" := by
  intro s r
  obtain ⟨hs, hcalls⟩ := call_locales (icuPlan []) rfl 1 polishMoves
  obtain ⟨-, hcall⟩ := hcalls s hs
  obtain ⟨-, -, -, hstate, hlocale⟩ := hcall "ns:items" threeItems
  have hcurrent : s.engine.locale = "pl" := rfl
  have hregistry : s.registry = [] := rfl
  have hlisteners : s.engine.listeners = [] := rfl
  have ho : s.Obeys StaysPut := by
    refine ⟨?_, ?_⟩
    · rw [hregistry]
      simp
    · rw [hlisteners]
      simp
  have hkeep : ∀ q ∈ s.enabled, q.KeepsLocale := by
    unfold Host.enabled
    rw [hregistry]
    simp
  exact ⟨rfl, hs, ho, (hlocale hkeep).trans hcurrent, (hstate ho).trans hcurrent,
    by decide +kernel⟩

/-- A plugin that has Polish texts looked up. -/
def polishPlugin : Plugin :=
  Scripted.plugin { name := "p", kind := .processor } {}
    [("before", { patch := some { patch := { locale := some "pl" } } })]

/-- The Polish message is found, and its clause is chosen by the English rules. -/
theorem call_in_two_locales :
    let s := step 1 (create (icuPlan [(polishPlugin, none)])).2
      (.request (.addCatalog "pl" "ns" [("items", .text polishMessage)]))
    let r := rendering (answer 1) "ns:items" threeItems s
    r.asked.locale = "pl" ∧ r.template = polishMessage ∧ r.state.engine.formatLocale = "en" ∧
      (phrase (answer 1) "ns:items" threeItems s).1 = "other" ∧
      Icu.render ⟨"pl", true, [("count", .int 3)]⟩ polishMessage = "few" :=
  ⟨by decide +kernel, by decide +kernel, by decide +kernel, by decide +kernel, by decide +kernel⟩

end Service

end Phrasebook
