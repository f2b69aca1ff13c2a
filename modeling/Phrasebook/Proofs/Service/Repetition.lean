import Phrasebook.Proofs.Service.Run
import Phrasebook.Proofs.Service.Vacancy

/-!
# The same call again

A call that finds a text changes nothing, and a call that misses a key changes what
`recordMissing_eq` lists. `phrase_twice` adds that after a call with a text to fall back on the same
call has the same answer and changes nothing any more: the placeholder stands under the plain name,
and the names for the count are as empty as before.
-/

namespace Phrasebook

namespace Store

variable {s : Store} {l n k : String}

/-- A text under one whole name brings no other name a text. -/
theorem get_set_eq_none {name text l' n' : String} (h : s.get l' n' k = none)
    (hk : ¬ (l' = l ∧ n' = n ∧ k = name)) : (s.set l n name text).get l' n' k = none := by
  rw [get_set]
  by_cases hplace : l' = l ∧ n' = n
  · obtain ⟨rfl, rfl⟩ := hplace
    have hname : k ≠ name := fun he => hk ⟨rfl, rfl, he⟩
    rw [if_pos ⟨rfl, rfl⟩, if_neg hname]
    split
    · cases hflat : s.flat? l' n' k with
      | none => rfl
      | some v =>
        rw [get_of_flat? hflat] at h
        simp at h
    · exact h
  · rw [if_neg hplace]
    exact h

theorem get_set_self (s : Store) (l n k text : String) : (s.set l n k text).get l n k = some text := by
  rw [get_set, if_pos ⟨rfl, rfl⟩, if_pos rfl]

end Store

namespace Plural

theorem exactName_ne (name : String) (count : Float) : exactName name count ≠ name := by
  intro h
  have hlength := congrArg (fun s : String => s.toList.length) h
  simp [exactName] at hlength

theorem resolveChecked_of_absent {s : PluralSettings} {locale name : String} {count : Float}
    {isPresent : String → Bool} (h : isPresent (exactName name count) = false) :
    resolveChecked s locale name count isPresent = resolve s locale name count := by
  have hnot : ¬ (s.strategy = .suffix ∧ isPresent (exactName name count) = true) := by
    rw [h]
    simp
  unfold resolveChecked
  exact if_neg hnot

end Plural

namespace Engine

variable {e e' : Engine} {l n k text : String}

/-- To miss a key of the namespace would start a load. -/
def WouldLoad (l n : String) (e : Engine) : Prop :=
  e.hasLoader = true ∧ (l, n) ∉ e.loaded ∧ (l, n) ∉ e.loading ∧ e.background = true

instance (l n : String) (e : Engine) : Decidable (e.WouldLoad l n) :=
  inferInstanceAs (Decidable (_ ∧ _ ∧ _ ∧ _))

theorem requestLoad_eq (e : Engine) (l n : String) :
    e.requestLoad l n =
      { e with
        loading := e.loading ++ if e.WouldLoad l n then [(l, n)] else []
        tasks := e.tasks ++ if e.WouldLoad l n then [{ job := .load l n }] else [] } := by
  by_cases h : e.WouldLoad l n
  · rw [if_pos h, if_pos h]
    exact if_pos h
  · rw [if_neg h, if_neg h, List.append_nil, List.append_nil]
    exact if_neg h

theorem requestSaveOfMissing_eq (e : Engine) (l n k text : String) :
    e.requestSaveOfMissing l n k text =
      { e with
        saving := e.saving ++ if e.WouldSave l n k then [(l, n, k)] else []
        tasks := e.tasks ++ if e.WouldSave l n k then [{ job := .save l n k text }] else [] } := by
  unfold requestSaveOfMissing
  by_cases h : e.WouldSave l n k
  · rw [if_pos h, if_pos h, if_pos h.1]
    exact if_pos h.2
  · rw [if_neg h, if_neg h, List.append_nil, List.append_nil]
    by_cases hmissing : e.settings.saveMissing = true
    · rw [if_pos hmissing]
      exact if_neg fun hrest => h ⟨hmissing, hrest⟩
    · rw [if_neg hmissing]

/-- All that recording a missing key changes. -/
theorem recordMissing_eq (e : Engine) (l n text : String) (h : k ≠ "") :
    e.recordMissing l n k text =
      { e with
        store := e.store.set l n k text
        saving := e.saving ++ if e.WouldSave l n k then [(l, n, k)] else []
        loading := e.loading ++ if e.WouldLoad l n then [(l, n)] else []
        tasks := (e.tasks ++ if e.WouldSave l n k then [{ job := .save l n k text }] else []) ++
          if e.WouldLoad l n then [{ job := .load l n }] else [] } := by
  rw [recordMissing_of_ne _ _ _ _ h, requestSaveOfMissing_eq, requestLoad_eq]
  rfl

theorem recordMissing_empty (e : Engine) (l n text : String) : e.recordMissing l n "" text = e := by
  rw [recordMissing, if_pos rfl]

/-! ### Looking the key up again -/

theorem lookup_set_eq_none {ls : List String} {name : String} (h : e.lookup ls n name = none)
    (hs : e'.store = e.store.set l n k text) (hk : name ≠ k) : e'.lookup ls n name = none := by
  unfold lookup at h ⊢
  rw [List.findSome?_eq_none_iff] at h ⊢
  intro l' hl'
  rw [hs]
  exact Store.get_set_eq_none (h l' hl') fun he => hk he.2.2

theorem lookup_set_self (hs : e'.store = e.store.set l n k text) :
    e'.lookup (e'.chain l) n k = some text := by
  refine lookup_chain ?_
  rw [hs, Store.get_set_self]

/-- Where no text is stored for the exact count, the form of the name does not depend on the
texts. -/
theorem findTemplate_of_exact {count : Float}
    (h : e.lookup (e.chain l) n (Plural.exactName k count) = none) :
    e.findTemplate l n k (some count) =
      (e.lookup (e.chain l) n (Plural.resolve e.settings.plural l k count).name).or
        (e.lookup (e.chain l) n k) := by
  have habsent : ((e.chain l).any fun l' => e.store.has l' n (Plural.exactName k count)) = false := by
    rw [List.any_eq_false]
    intro l' hl'
    have hget := List.findSome?_eq_none_iff.1 h l' hl'
    unfold Store.has
    rw [hget]
    simp
  unfold findTemplate
  dsimp only
  rw [h, Option.none_or, Plural.resolveChecked_of_absent habsent]

/-- None of the names for a count gets a text, and the plain name gets the placeholder. -/
theorem findTemplate_set {count : Option Float} (h : e.findTemplate l n k count = none)
    (hs : e'.store = e.store.set l n k text) (hset : e'.settings = e.settings) :
    e'.findTemplate l n k count = some text := by
  have hchain : e'.chain l = e.chain l := by
    unfold chain
    rw [hset]
  have hplain : e'.lookup (e'.chain l) n k = some text := lookup_set_self hs
  cases count with
  | none => exact hplain
  | some count =>
    have hexact : e.lookup (e.chain l) n (Plural.exactName k count) = none := by
      unfold findTemplate at h
      dsimp only at h
      rw [Option.or_eq_none_iff, Option.or_eq_none_iff] at h
      exact h.1.1
    have hexact' : e'.lookup (e'.chain l) n (Plural.exactName k count) = none := by
      rw [hchain]
      exact lookup_set_eq_none hexact hs (Plural.exactName_ne k count)
    rw [findTemplate_of_exact hexact, Option.or_eq_none_iff] at h
    rw [findTemplate_of_exact hexact', hset, hplain]
    by_cases hname : (Plural.resolve e.settings.plural l k count).name = k
    · rw [hname, hplain, Option.some_or]
    · rw [hchain, lookup_set_eq_none h.1 hs hname, Option.none_or]

/-- The namespace and name that a call looks for. -/
def sought (e : Engine) (key : String) : Key :=
  Key.parse e.settings.defaultSpace e.locale key

/-- The text that a call finds. -/
def template? (e : Engine) (key : String) (args : Arguments) : Option String :=
  e.findTemplate e.locale (e.sought key).space (e.sought key).name (Service.countOf args.vars)

end Engine

namespace Service

variable {s : Service} {key : String} {args : Arguments}

theorem phrase_of_template (hr : s.registry = []) (answer : Handler Engine) {template : String}
    (h : s.engine.template? key args = some template) :
    phrase answer key args s = (s.engine.render template args.vars, s) := by
  unfold Engine.template? Engine.sought at h
  rw [phrase_of_registry_nil hr]
  dsimp only
  rw [h]

theorem phrase_of_no_template (hr : s.registry = []) (answer : Handler Engine)
    (h : s.engine.template? key args = none) :
    phrase answer key args s =
      let k := s.engine.sought key
      let t := mapEngine s
        (·.recordMissing s.engine.locale k.space k.name (args.text?.getD k.name))
      (t.engine.render (args.text?.getD key) args.vars, t) := by
  unfold Engine.template? Engine.sought at h
  rw [phrase_of_registry_nil hr]
  dsimp only
  rw [h]
  rfl

theorem text?_of_ne {text : String} (h : text ≠ "") (vars : Option Vars) :
    Arguments.text? { fallback := some text, vars } = some text := by
  unfold Arguments.text?
  simp [h]

theorem template?_recordMissing {e : Engine} (h : e.template? key args = none)
    (hk : (e.sought key).name ≠ "") (text : String) :
    (e.recordMissing e.locale (e.sought key).space (e.sought key).name text).template? key args =
      some text := by
  have hstore := Engine.recordMissing_store e e.locale (e.sought key).space (e.sought key).name text
  rw [if_neg hk] at hstore
  obtain ⟨saving, loading, tasks, hframe⟩ := Engine.recordMissing_frame e e.locale
    (e.sought key).space (e.sought key).name text
  generalize e.recordMissing e.locale (e.sought key).space (e.sought key).name text = e'
    at hstore hframe ⊢
  have hsettings : e'.settings = e.settings := by rw [hframe]
  have hlocale : e'.locale = e.locale := by rw [hframe]
  have hsought : e'.sought key = e.sought key := by
    unfold Engine.sought
    rw [hsettings, hlocale]
  unfold Engine.template?
  rw [hsought, hlocale]
  exact Engine.findTemplate_set h hstore hsettings

@[simp] theorem mapEngine_registry (s : Service) (f : Engine → Engine) :
    (mapEngine s f).registry = s.registry := rfl

@[simp] theorem mapEngine_engine (s : Service) (f : Engine → Engine) :
    (mapEngine s f).engine = f s.engine := rfl

theorem mapEngine_recordMissing_empty (s : Service) (l n text : String) :
    mapEngine s (·.recordMissing l n "" text) = s :=
  congrArg (fun e => { s with engine := e }) (Engine.recordMissing_empty s.engine l n text)

/-- Workers were asked and have not answered. -/
def withTasks (journal : List Event) (tasks : List Task) (s : Service) : Service :=
  { s with journal, engine := { s.engine with tasks } }

theorem run_asks (depth : Nat) (indices : List Nat) (s : Service) :
    ∃ journal tasks, run depth (indices.map .ask) s = s.withTasks journal tasks := by
  induction indices generalizing s with
  | nil => exact ⟨s.journal, s.engine.tasks, rfl⟩
  | cons index indices ih =>
    rw [List.map_cons, run_cons, step]
    split
    · rename_i job _
      obtain ⟨journal, tasks, h⟩ := ih (ask index job s)
      exact ⟨journal, tasks, h⟩
    · exact ih s

theorem template?_withTasks (s : Service) (key : String) (args : Arguments)
    (journal : List Event) (tasks : List Task) :
    (s.withTasks journal tasks).engine.template? key args = s.engine.template? key args := by
  unfold Engine.template? Engine.findTemplate
  rfl

theorem phrase_withTasks (hr : s.registry = []) (answer : Handler Engine) {template : String}
    (h : s.engine.template? key args = some template) (journal : List Event) (tasks : List Task) :
    phrase answer key args (s.withTasks journal tasks) =
      (s.engine.render template args.vars, s.withTasks journal tasks) := by
  have hr' : (s.withTasks journal tasks).registry = [] := hr
  rw [← template?_withTasks s key args journal tasks] at h
  exact phrase_of_template hr' answer h

theorem phrase_empty (hr : s.registry = []) (answer : Handler Engine)
    (h : s.engine.template? key args = none) (hk : (s.engine.sought key).name = "") :
    phrase answer key args s = (s.engine.render (args.text?.getD key) args.vars, s) := by
  rw [phrase_of_no_template hr answer h]
  dsimp only
  rw [hk, mapEngine_recordMissing_empty]

theorem phrase_empty_withTasks (hr : s.registry = []) (answer : Handler Engine)
    (h : s.engine.template? key args = none) (hk : (s.engine.sought key).name = "")
    (journal : List Event) (tasks : List Task) :
    phrase answer key args (s.withTasks journal tasks) =
      (s.engine.render (args.text?.getD key) args.vars, s.withTasks journal tasks) := by
  have hr' : (s.withTasks journal tasks).registry = [] := hr
  have hk' : ((s.withTasks journal tasks).engine.sought key).name = "" := hk
  rw [← template?_withTasks s key args journal tasks] at h
  exact phrase_empty hr' answer h hk'

/-- The placeholder is found by the same call. -/
theorem phrase_recorded (hr : s.registry = []) (answer : Handler Engine) {text : String}
    (htext : args.text? = some text) (h : s.engine.template? key args = none)
    (hk : (s.engine.sought key).name ≠ "") :
    ∃ u, phrase answer key args s = (u.engine.render text args.vars, u) ∧ u.registry = [] ∧
      u.engine.template? key args = some text := by
  have hfirst := phrase_of_no_template hr answer h
  simp only [htext, Option.getD_some] at hfirst
  refine ⟨_, hfirst, ?_, ?_⟩
  · rw [mapEngine_registry]
    exact hr
  · rw [mapEngine_engine]
    exact template?_recordMissing h hk text

/-- After a call with a text to fall back on, the same call has the same answer and changes nothing,
as long as no worker answers in between. A call that finds a text changes nothing at all, nor does
one that misses an empty name. Any other stores the placeholder under the plain name, and starts a
save and a load unless they are under way or not to be had. -/
theorem phrase_twice (hr : s.registry = []) (answer : Handler Engine) (key : String)
    {text : String} (ht : text ≠ "") (vars : Option Vars) :
    (let args : Arguments := { fallback := some text, vars }
     ∀ depth (indices : List Nat),
      let t := run depth (indices.map .ask) (phrase answer key args s).2
      phrase answer key args t = ((phrase answer key args s).1, t)) ∧
    ∀ key args,
      let l := s.engine.locale
      let n := (s.engine.sought key).space
      let k := (s.engine.sought key).name
      let placeholder := args.text?.getD k
      let t := (phrase answer key args s).2
      (∀ template, s.engine.template? key args = some template → t = s) ∧
      (s.engine.template? key args = none → k = "" → t = s) ∧
      (s.engine.template? key args = none → k ≠ "" →
        t = mapEngine s (fun e => { e with
          store := e.store.set l n k placeholder
          saving := e.saving ++ if e.WouldSave l n k then [(l, n, k)] else []
          loading := e.loading ++ if e.WouldLoad l n then [(l, n)] else []
          tasks := (e.tasks ++
              if e.WouldSave l n k then [{ job := .save l n k placeholder }] else []) ++
            if e.WouldLoad l n then [{ job := .load l n }] else [] }) ∧
        ∀ l' n', t.engine.store.catalog? l' n' = if l' = l ∧ n' = n then
            some (Dictionary.insert k (.text placeholder) ((s.engine.store.catalog? l n).getD []))
          else s.engine.store.catalog? l' n') := by
  constructor
  · intro args
    have htext : args.text? = some text := text?_of_ne ht vars
    clear_value args
    intro depth indices t
    obtain ⟨journal, tasks, hasked⟩ := run_asks depth indices (phrase answer key args s).2
    have hlater : t = (phrase answer key args s).2.withTasks journal tasks := hasked
    rw [hlater]
    cases hf : s.engine.template? key args with
    | some template =>
      rw [phrase_of_template hr answer hf]
      exact phrase_withTasks hr answer hf journal tasks
    | none =>
      by_cases hk : (s.engine.sought key).name = ""
      · rw [phrase_empty hr answer hf hk]
        exact phrase_empty_withTasks hr answer hf hk journal tasks
      · obtain ⟨u, hu, hr', hf'⟩ := phrase_recorded hr answer htext hf hk
        rw [hu]
        exact phrase_withTasks hr' answer hf' journal tasks
  · intro key args l n k placeholder t
    refine ⟨fun template hf => ?_, fun hf hk => ?_, fun hf hk => ?_⟩
    · exact congrArg Prod.snd (phrase_of_template hr answer hf)
    · exact congrArg Prod.snd (phrase_empty hr answer hf hk)
    · have hmiss : t = mapEngine s (·.recordMissing l n k placeholder) :=
        congrArg Prod.snd (phrase_of_no_template hr answer hf)
      refine ⟨?_, fun l' n' => ?_⟩
      · rw [hmiss]
        exact congrArg (fun e => { s with engine := e }) (Engine.recordMissing_eq _ l n placeholder hk)
      · have hstore : t.engine.store = s.engine.store.set l n k placeholder := by
          rw [hmiss]
          exact (Engine.recordMissing_store s.engine l n k placeholder).trans (if_neg hk)
        rw [hstore]
        exact Store.catalog?_setCatalog _ _ _ _ _ _

/-- The saver is asked between the two calls. -/
theorem phrase_twice_counted :
    let s := (create { settings := { locale := "en", saveMissing := true }, hasSaver := true }).2
    let args : Arguments :=
      { fallback := some "Some", vars := some [("count", .float (Float.ofScientific 15 true 1))] }
    let t := run 1 ([0].map .ask) (phrase (answer 1) "ns:item" args s).2
    s.registry = [] ∧ "Some" ≠ "" ∧
      phrase (answer 1) "ns:item" args t = ((phrase (answer 1) "ns:item" args s).1, t) ∧
      t.asks = [.save "en" "ns" "item" "Some"] := by
  intro s args t
  refine ⟨rfl, by decide, ?_, by decide +kernel⟩
  exact (phrase_twice rfl (answer 1) "ns:item" (by decide) args.vars).1 1 [0]

end Service

end Phrasebook
