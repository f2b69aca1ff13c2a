import Phrasebook.Proofs.Icu.Inert
import Phrasebook.Proofs.Service.Placeholder

/-!
# Answers to keys without a text

A call that finds no text and is given none answers with the key, but only after the key has been
rendered like any template: `phrase_untranslated` says when that leaves the key as it was given.
-/

namespace Phrasebook

namespace Engine

variable {e : Engine} {template : String} {vars : Vars}

/-- Nothing in the template has a replacement among the values. -/
def Inert (e : Engine) (template : String) (vars : Vars) : Prop :=
  match e.settings.messageSyntax with
  | .mustache => Mustache.Inert e.settings.escapeHtml vars template.toList
  | .icu => Icu.Env.Inert ⟨e.formatLocale, e.settings.escapeHtml, vars⟩ template.toList

/-- No text that a value may put into the template has an opening brace. -/
def Braceless (e : Engine) (template : String) (vars : Vars) : Prop :=
  match e.settings.messageSyntax with
  | .mustache => Mustache.Braceless e.settings.escapeHtml vars template.toList
  | .icu => Icu.Env.Braceless ⟨e.formatLocale, e.settings.escapeHtml, vars⟩

theorem inert_of_notMem (e : Engine) (vars : Vars) (h : '\x7b' ∉ template.toList) :
    e.Inert template vars := by
  unfold Inert
  cases e.settings.messageSyntax with
  | mustache =>
    intro path source hmem
    exact absurd (Text.mem_of_mem_source hmem (Mustache.brace_mem_of_mem_tokens hmem)) h
  | icu =>
    refine ⟨fun kind front name head after htext hm => ?_, fun name source hmem => ?_⟩
    · obtain ⟨_, _, _, -, -, -, -, hhead, -⟩ := Icu.eq_append_of_marker? hm
      exact absurd (by rw [htext, hhead]; simp) h
    · exact absurd (Text.mem_of_mem_source hmem (Icu.brace_mem_of_mem_tokens hmem)) h

theorem render_of_inert (h : e.Inert template vars) :
    e.render template (some vars) = template := by
  unfold Inert at h
  rw [render, ← String.toList_inj]
  cases hs : e.settings.messageSyntax with
  | mustache =>
    rw [hs] at h
    simp only [Mustache.render, String.toList_ofList]
    exact Mustache.renderChars_of_inert h
  | icu =>
    rw [hs] at h
    simp only [Icu.render, String.toList_ofList]
    exact Icu.renderChars_of_inert h

theorem render_eq_self_iff (h : e.Braceless template vars) :
    e.render template (some vars) = template ↔ e.Inert template vars := by
  unfold Braceless at h
  rw [render, Inert, ← String.toList_inj]
  cases hs : e.settings.messageSyntax with
  | mustache =>
    rw [hs] at h
    simp only [Mustache.render, String.toList_ofList]
    exact Mustache.renderChars_eq_self_iff h
  | icu =>
    rw [hs] at h
    simp only [Icu.render, String.toList_ofList]
    exact Icu.renderChars_eq_self_iff h _

theorem recordMissing_render (e : Engine) (l n k text template : String) (vars : Option Vars) :
    (e.recordMissing l n k text).render template vars = e.render template vars := by
  obtain ⟨saving, loading, tasks, h⟩ := recordMissing_frame e l n k text
  rw [h]
  rfl

end Engine

namespace Service

variable {s : Service}

/-- Without plugins, a call that finds no text and is given none answers with the key as a template
of its own. So it answers with the key itself if no values are given, if the key has no opening
brace or if nothing in the key has a replacement; where no value has an opening brace in its text,
it does so in no other case. -/
theorem phrase_untranslated (hr : s.registry = []) (answer : Handler Engine) (key : String)
    (args : Arguments) (ht : args.text? = none)
    (hf : let k := Key.parse s.engine.settings.defaultSpace s.engine.locale key
      s.engine.findTemplate s.engine.locale k.space k.name (countOf args.vars) = none) :
    let text := (phrase answer key args s).1
    text = s.engine.render key args.vars ∧
      (args.vars = none ∨ '\x7b' ∉ key.toList → text = key) ∧
      ∀ vars, args.vars = some vars →
        (s.engine.Inert key vars → text = key) ∧
        (s.engine.Braceless key vars → (text = key ↔ s.engine.Inert key vars)) := by
  intro text
  have hrender : text = s.engine.render key args.vars := by
    simp only [text, phrase_of_registry_nil hr, hf, ht, mapEngine, Option.getD_none]
    exact Engine.recordMissing_render _ _ _ _ _ _ _
  refine ⟨hrender, fun h => ?_, fun vars hvars => ⟨fun h => ?_, fun h => ?_⟩⟩
  · rw [hrender]
    cases hvars : args.vars with
    | none => rfl
    | some vars =>
      have hfree := h.resolve_left (by simp [hvars])
      exact Engine.render_of_inert (Engine.inert_of_notMem _ vars hfree)
  · rw [hrender, hvars]
    exact Engine.render_of_inert h
  · rw [hrender, hvars]
    exact Engine.render_eq_self_iff h

/-- A phrase book without texts. -/
def untold (m : MessageSyntax) : Service :=
  (create { settings := { locale := "en", messageSyntax := m } }).2

def adaVars : Vars := [("name", .str "Ada")]

def adaArguments : Arguments where
  vars := some adaVars

/-- A placeholder without a text stays in the key. -/
theorem phrase_untranslated_nickname :
    (untold .mustache).registry = [] ∧ adaArguments.text? = none ∧
      (untold .mustache).engine.findTemplate "en" "ns" "{{nickname}}" none = none ∧
      (phrase Host.refuse "ns:{{nickname}}" adaArguments (untold .mustache)).1 =
        "ns:{{nickname}}" := by
  have hnone : (untold .mustache).engine.findTemplate "en" "ns" "{{nickname}}" none = none := by
    decide +kernel
  have hinert : (untold .mustache).engine.Inert "ns:{{nickname}}" adaVars := by
    have hall : ((Text.tokens Mustache.placeholder? "ns:{{nickname}}".toList).all fun
        | .char _ => true
        | .token path _ => (Mustache.replacement true adaVars path).isNone) = true := by
      decide +kernel
    change Mustache.Inert true adaVars "ns:{{nickname}}".toList
    intro path source hmem
    simpa using List.all_eq_true.1 hall _ hmem
  have hanswer := phrase_untranslated (s := untold .mustache) (by rfl) Host.refuse
    "ns:{{nickname}}" adaArguments (by decide +kernel) (by decide +kernel)
  exact ⟨by rfl, by decide +kernel, hnone, (hanswer.2.2 _ rfl).1 hinert⟩

/-- A placeholder with a text does not, and neither does a pattern. -/
theorem phrase_untranslated_name :
    (create { settings := { locale := "en" } }).1.isOk = true ∧
      (untold .mustache).registry = [] ∧ (untold .icu).registry = [] ∧
      adaArguments.text? = none ∧
      (untold .mustache).engine.findTemplate "en" "ns" "{{name}}" none = none ∧
      (untold .icu).engine.findTemplate "en" "ns" "{name}" none = none ∧
      (phrase Host.refuse "ns:{{name}}" adaArguments (untold .mustache)).1 = "ns:Ada" ∧
      (phrase Host.refuse "ns:{name}" adaArguments (untold .icu)).1 = "ns:Ada" :=
  ⟨by decide +kernel, by rfl, by rfl, by decide +kernel, by decide +kernel, by decide +kernel,
    by decide +kernel, by decide +kernel⟩

end Service

end Phrasebook
