import Phrasebook.Plugin.Scripted
import Phrasebook.Proofs.Plugin.Quiet
import Phrasebook.Proofs.Service.Placeholder

/-!
# Texts that come from hooks

The plugins are told of a missing key before its placeholder is stored, and may have a text stored
for it meanwhile. `supplied_text` says what is left of it: the key is not looked up again, and the
placeholder takes the place of whatever there is by then.
-/

namespace Phrasebook

namespace Engine

/-- The placeholder `text` for the name `k` takes the place of the text `w` under the name `k'`, or
of a group on the way to it. -/
def Displaces (e : Engine) (l n k text l' n' k' w : String) : Prop :=
  k ≠ "" ∧ (l' = l ∧ n' = n) ∧
    (k' = k ∧ w ≠ text ∨
      k' ≠ k ∧ Catalog.firstGroup? k' = some k ∧ e.store.flat? l n k' = none)

theorem get_recordMissing {e : Engine} {l' n' k' w : String}
    (hw : e.store.get l' n' k' = some w) (l n k text : String) :
    (e.recordMissing l n k text).store.get l' n' k' = some w ↔
      ¬ e.Displaces l n k text l' n' k' w := by
  unfold Displaces
  rw [recordMissing_store]
  by_cases hk : k = ""
  · rw [if_pos hk]
    exact ⟨fun _ h => h.1 hk, fun _ => hw⟩
  rw [if_neg hk, Store.get_set]
  by_cases hplace : l' = l ∧ n' = n
  · obtain ⟨rfl, rfl⟩ := hplace
    rw [if_pos ⟨rfl, rfl⟩]
    by_cases hname : k' = k
    · rw [if_pos hname, Option.some.injEq]
      simp [hk, hname, eq_comm]
    · rw [if_neg hname]
      by_cases hgroup : Catalog.firstGroup? k' = some k
      · rw [if_pos hgroup]
        cases hflat : e.store.flat? l' n' k' with
        | none => simp [hk, hname, hgroup]
        | some v =>
          have hv : v = w := Option.some.inj ((Store.get_of_flat? hflat).symm.trans hw)
          simp [hname, hv]
      · rw [if_neg hgroup]
        simp [hname, hgroup, hw]
  · rw [if_neg hplace]
    exact ⟨fun _ h => hplace h.2.1, fun _ => hw⟩

theorem get_recordMissing_self {e : Engine} {l n k v : String} (hv : e.store.get l n k = some v)
    (text : String) :
    (e.recordMissing l n k text).store.get l n k = some (if k = "" then v else text) := by
  rw [recordMissing_store]
  by_cases hk : k = ""
  · rw [if_pos hk, if_pos hk, hv]
  · rw [if_neg hk, if_neg hk, Store.get_set, if_pos ⟨rfl, rfl⟩, if_pos rfl]

end Engine

namespace Service

variable {answer : Handler Engine} {key : String} {args : Arguments} {s u : Service} {c : Context}

/-- What the plugins are told of a missing key, and the state in which they are told. -/
def reported? (answer : Handler Engine) (key : String) (args : Arguments) (s : Service) :
    Option (Context × Service) :=
  let (c, u) := s.dispatch answer .before (contextFor s.engine key args)
  match u.engine.findTemplate c.locale (c.space.getD "") (c.name.getD "") (countOf c.vars) with
  | some _ => none
  | none => some ({ c with result := some (args.text?.getD key) }, u)

theorem phrase_of_reported (h : reported? answer key args s = some (c, u)) :
    phrase answer key args s =
      finish answer c (args.text?.getD key)
        (miss answer c (c.space.getD "") (c.name.getD "") (args.text?.getD (c.name.getD "")) u) := by
  unfold reported? at h
  unfold phrase
  generalize s.dispatch answer .before (contextFor s.engine key args) = found at h ⊢
  obtain ⟨c', u'⟩ := found
  dsimp only at h ⊢
  cases hf : u'.engine.findTemplate c'.locale (c'.space.getD "") (c'.name.getD "")
      (countOf c'.vars) with
  | some template =>
    rw [hf] at h
    simp at h
  | none =>
    rw [hf] at h
    obtain ⟨rfl, rfl⟩ := Prod.mk.inj (Option.some.inj h)
    rfl

/-- Once the plugins were told of the key, it is recorded whatever they did. -/
theorem engine_phrase_of_reported (h : reported? answer key args s = some (c, u))
    (hq : ∀ r ∈ (u.dispatch answer .missing c).2.registry, r.QuietTo .after) :
    (phrase answer key args s).2.engine =
      (u.dispatch answer .missing c).2.engine.recordMissing c.locale (c.space.getD "")
        (c.name.getD "") (args.text?.getD (c.name.getD "")) := by
  rw [phrase_of_reported h]
  exact (Host.dispatch_undisturbed (h := mapEngine _ _) answer hq _).engine

/-- When the plugins have been told of a missing key, a text that is found for it by then gives way
to the placeholder, unless the name is empty. Every other text that is found by then stays, unless
the placeholder takes the place of a group on the way to it. -/
theorem supplied_text (h : reported? answer key args s = some (c, u))
    (hq : ∀ r ∈ (u.dispatch answer .missing c).2.registry, r.QuietTo .after) :
    let told := (u.dispatch answer .missing c).2.engine
    let after := (phrase answer key args s).2.engine
    let l := c.locale
    let n := c.space.getD ""
    let k := c.name.getD ""
    let placeholder := args.text?.getD k
    (∀ v, told.store.get l n k = some v →
      after.store.get l n k = some (if k = "" then v else placeholder)) ∧
    ∀ l' n' k' w, told.store.get l' n' k' = some w →
      (after.store.get l' n' k' = some w ↔ ¬ told.Displaces l n k placeholder l' n' k' w) := by
  intro told after l n k placeholder
  have hafter : after = told.recordMissing l n k placeholder := engine_phrase_of_reported h hq
  refine ⟨fun v hv => ?_, fun l' n' k' w hw => ?_⟩
  · rw [hafter]
    exact Engine.get_recordMissing_self hv placeholder
  · rw [hafter]
    exact Engine.get_recordMissing hw l n k placeholder

/-- A plugin that adds texts when it is told of a missing key. -/
def supplier : Plugin where
  info := { name := "supplier", kind := .backend }
  defaultConfig := {}
  memory := ""
  respond _ call :=
    match call with
    | .missing _ =>
      .ask (.addCatalog "en" "ns" [("a", .text "Supplied"), ("b", .text "Other")]) fun _ =>
        .finish .nothing
    | _ => .finish .nothing

def supplied : Service :=
  (create { settings := { locale := "en" }, plugins := [(supplier, none)] }).2

/-- The text for the other key stays. -/
theorem supplied_text_other :
    ∃ c u, reported? (Service.answer 1) "ns:a" {} supplied = some (c, u) ∧
      (∀ r ∈ (u.dispatch (Service.answer 1) .missing c).2.registry, r.QuietTo .after) ∧
      (u.dispatch (Service.answer 1) .missing c).2.engine.store.get "en" "ns" "b" =
        some "Other" ∧
      (phrase (Service.answer 1) "ns:a" {} supplied).2.engine.store.get "en" "ns" "b" =
        some "Other" := by
  obtain ⟨c, u, h, hregistry, hname, hother⟩ :
      ∃ c u, reported? (Service.answer 1) "ns:a" {} supplied = some (c, u) ∧
        (u.dispatch (Service.answer 1) .missing c).2.registry = [⟨0, supplier, {}⟩] ∧
        c.name.getD "" = "a" ∧
        (u.dispatch (Service.answer 1) .missing c).2.engine.store.get "en" "ns" "b" =
          some "Other" :=
    ⟨_, _, rfl, rfl, by decide +kernel, by decide +kernel⟩
  have hq : ∀ r ∈ (u.dispatch (Service.answer 1) .missing c).2.registry, r.QuietTo .after := by
    intro r hr
    rw [hregistry, List.mem_singleton] at hr
    rw [hr]
    exact fun memory c => trivial
  refine ⟨c, u, h, hq, hother, ((supplied_text h hq).2 _ _ _ _ hother).2 ?_⟩
  rw [hname]
  rintro ⟨-, -, ⟨hsame, -⟩ | ⟨-, hgroup, -⟩⟩
  · exact absurd hsame (by decide)
  · exact absurd hgroup (by decide +kernel)

/-- A plugin that asks for the missing key itself, with a text of its own to fall back on. -/
def askingPlugin : Plugin :=
  Scripted.plugin { name := "p", kind := .middleware } {}
    [("missing", { phrase := some ("ns:a", { fallback := some "Supplied" }) })]

def asking : Service :=
  (create { settings := { locale := "en" }, plugins := [(askingPlugin, none)] }).2

/-- The text is there when the plugins have been told, and not any more when the call ends. -/
theorem supplied_text_lost :
    ∃ c u, reported? (Service.answer 1) "ns:a" { fallback := some "Default" } asking =
        some (c, u) ∧
      c.locale = "en" ∧ c.space = some "ns" ∧ c.name = some "a" ∧
      (u.dispatch (Service.answer 1) .missing c).2.engine.store.get "en" "ns" "a" =
        some "Supplied" ∧
      (phrase (Service.answer 1) "ns:a" { fallback := some "Default" } asking).2.engine.store.get
        "en" "ns" "a" = some "Default" :=
  ⟨_, _, rfl, by decide +kernel, by decide +kernel, by decide +kernel, by decide +kernel,
    by decide +kernel⟩

end Service

end Phrasebook
