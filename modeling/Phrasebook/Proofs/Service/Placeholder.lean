import Phrasebook.Proofs.Service.Record
import Phrasebook.Proofs.Store.Footprint

/-!
# Placeholders in the store

A call that finds no text stores a placeholder under the name that it looked for. `get_phrase` says
which texts are still found after a call: all but those behind a group of that very name.
-/

namespace Phrasebook

namespace Host

variable {ε : Type}

theorem dispatch_of_registry_nil {h : Host ε} (hr : h.registry = []) (answer : Handler ε)
    (hook : Hook) (c : Context) : h.dispatch answer hook c = (c, h) := by
  unfold dispatch enabled
  rw [hr]
  rfl

end Host

namespace Engine

theorem mem_chain (e : Engine) (l : String) : l ∈ e.chain l := by
  unfold chain
  split
  · split <;> simp
  · simp

/-- The locale itself is searched before the fallback locale. -/
theorem lookup_chain {e : Engine} {l n k v : String} (h : e.store.get l n k = some v) :
    e.lookup (e.chain l) n k = some v := by
  have hhead : ∃ rest, e.chain l = l :: rest := by
    unfold chain
    split
    · split
      · exact ⟨[], rfl⟩
      · exact ⟨_, rfl⟩
    · exact ⟨[], rfl⟩
  obtain ⟨rest, hrest⟩ := hhead
  unfold lookup
  rw [hrest, List.findSome?_cons, h]

/-- A name is not missed while the locale has a text for it. -/
theorem get_of_findTemplate_eq_none {e : Engine} {l n k : String} {count : Option Float}
    (h : e.findTemplate l n k count = none) : e.store.get l n k = none := by
  have hplain : e.lookup (e.chain l) n k = none := by
    unfold findTemplate at h
    cases count with
    | none => exact h
    | some count => exact (Option.or_eq_none_iff.1 h).2
  exact List.findSome?_eq_none_iff.1 hplain l (e.mem_chain l)

/-- The key that a call finds no text for, if it has a name. -/
def missed? (e : Engine) (key : String) (args : Arguments) : Option Key :=
  let k := Key.parse e.settings.defaultSpace e.locale key
  if k.name ≠ "" ∧ (e.findTemplate e.locale k.space k.name (Service.countOf args.vars)).isNone then
    some k
  else none

/-- The placeholder of the call takes the place of the group that the name `k` leads through, and no
text is stored under the whole of `k`. -/
def Buries (e : Engine) (key : String) (args : Arguments) (l n k : String) : Prop :=
  ∃ m, e.missed? key args = some m ∧ l = e.locale ∧ n = m.space ∧
    Catalog.firstGroup? k = some m.name ∧ e.store.flat? l n k = none

theorem name_of_missed? {e : Engine} {key : String} {args : Arguments} {m : Key}
    (h : e.missed? key args = some m) : m.name ≠ "" := by
  unfold missed? at h
  dsimp only at h
  split at h
  · rename_i hm
    rw [← Option.some.inj h]
    exact hm.1
  · simp at h

theorem get_of_missed? {e : Engine} {key : String} {args : Arguments} {m : Key}
    (h : e.missed? key args = some m) : e.store.get e.locale m.space m.name = none := by
  unfold missed? at h
  dsimp only at h
  split at h
  · rename_i hm
    rw [← Option.some.inj h]
    exact get_of_findTemplate_eq_none (Option.isNone_iff_eq_none.1 hm.2)
  · simp at h

end Engine

namespace Service

variable {s : Service} {answer : Handler Engine}

/-! ### Calls without plugins -/

theorem finish_of_registry_nil (hr : s.registry = []) (answer : Handler Engine) (c : Context)
    (template : String) : finish answer c template s = (s.engine.render template c.vars, s) := by
  unfold finish
  dsimp only
  rw [Host.dispatch_of_registry_nil hr]
  rfl

theorem miss_of_registry_nil (hr : s.registry = []) (answer : Handler Engine) (c : Context)
    (space name placeholder : String) :
    miss answer c space name placeholder s =
      mapEngine s (·.recordMissing c.locale space name placeholder) := by
  unfold miss
  rw [Host.dispatch_of_registry_nil hr]

/-- A call renders the text that it finds, and otherwise records the key. -/
theorem phrase_of_registry_nil (hr : s.registry = []) (answer : Handler Engine) (key : String)
    (args : Arguments) :
    phrase answer key args s =
      let k := Key.parse s.engine.settings.defaultSpace s.engine.locale key
      match s.engine.findTemplate s.engine.locale k.space k.name (countOf args.vars) with
      | some template => (s.engine.render template args.vars, s)
      | none =>
        let t := mapEngine s
          (·.recordMissing s.engine.locale k.space k.name (args.text?.getD k.name))
        (t.engine.render (args.text?.getD key) args.vars, t) := by
  unfold phrase
  rw [Host.dispatch_of_registry_nil hr]
  simp only [contextFor, Option.getD_some]
  generalize Key.parse s.engine.settings.defaultSpace s.engine.locale key = k
  cases s.engine.findTemplate s.engine.locale k.space k.name (countOf args.vars) with
  | some template => exact finish_of_registry_nil hr answer _ template
  | none =>
    dsimp only
    rw [miss_of_registry_nil hr]
    exact finish_of_registry_nil (s := mapEngine s _) hr answer _ _

/-- A text that the current locale has is rendered, whatever the fallback locale has. -/
theorem phrase_of_get (hr : s.registry = []) (answer : Handler Engine) {key : String}
    {args : Arguments} {n k v : String}
    (hk : Key.parse s.engine.settings.defaultSpace s.engine.locale key = ⟨n, k⟩)
    (hc : countOf args.vars = none) (hv : s.engine.store.get s.engine.locale n k = some v) :
    phrase answer key args s = (s.engine.render v args.vars, s) := by
  have hfound : s.engine.findTemplate s.engine.locale n k none = some v := Engine.lookup_chain hv
  rw [phrase_of_registry_nil hr, hk, hc]
  dsimp only
  rw [hfound]

theorem knows_of_get {key n k v : String}
    (hk : Key.parse s.engine.settings.defaultSpace s.engine.locale key = ⟨n, k⟩)
    (hv : s.engine.store.get s.engine.locale n k = some v) : s.knows key = true := by
  unfold knows
  dsimp only
  rw [hk, Engine.lookup_chain hv]
  rfl

/-- A call records the key that it misses and does nothing else. -/
theorem engine_phrase (answer : Handler Engine) (hr : s.registry = []) (key : String)
    (args : Arguments) :
    (phrase answer key args s).2.engine =
      match s.engine.missed? key args with
      | some m =>
        s.engine.recordMissing s.engine.locale m.space m.name (args.text?.getD m.name)
      | none => s.engine := by
  rw [phrase_of_registry_nil hr]
  unfold Engine.missed?
  dsimp only
  split
  · rename_i template hf
    simp [hf]
  · rename_i hf
    simp only [hf, mapEngine]
    by_cases hn : (Key.parse s.engine.settings.defaultSpace s.engine.locale key).name = ""
    · rw [Engine.recordMissing, if_pos hn]
      simp [hn]
    · simp [hn]

/-- A text is found after a call as before, unless the call misses a name that is the first group on
the way to the text. -/
theorem get_phrase (hr : s.registry = []) (key : String) (args : Arguments) {l n k v : String}
    (hv : s.engine.store.get l n k = some v) :
    (phrase answer key args s).2.engine.store.get l n k = some v ↔
      ¬ s.engine.Buries key args l n k := by
  rw [engine_phrase answer hr]
  cases hm : s.engine.missed? key args with
  | none =>
    refine ⟨fun _ h => ?_, fun _ => hv⟩
    obtain ⟨m, hm', -⟩ := h
    rw [hm] at hm'
    simp at hm'
  | some m =>
    have hmissed := Engine.get_of_missed? hm
    have hburies : s.engine.Buries key args l n k ↔ (l = s.engine.locale ∧ n = m.space) ∧
        Catalog.firstGroup? k = some m.name ∧ s.engine.store.flat? l n k = none := by
      constructor
      · rintro ⟨m', hm', hl, hn, hgroup, hflat⟩
        obtain rfl : m = m' := Option.some.inj (hm.symm.trans hm')
        exact ⟨⟨hl, hn⟩, hgroup, hflat⟩
      · rintro ⟨⟨hl, hn⟩, hgroup, hflat⟩
        exact ⟨m, hm, hl, hn, hgroup, hflat⟩
    have hname : m.name ≠ "" := Engine.name_of_missed? hm
    dsimp only
    rw [hburies, Engine.recordMissing_store, if_neg hname, Store.get_set]
    by_cases hplace : l = s.engine.locale ∧ n = m.space
    · obtain ⟨rfl, rfl⟩ := hplace
      have hother : k ≠ m.name := by
        rintro rfl
        rw [hmissed] at hv
        simp at hv
      rw [if_pos ⟨rfl, rfl⟩, if_neg hother]
      by_cases hgroup : Catalog.firstGroup? k = some m.name
      · rw [if_pos hgroup]
        cases hflat : s.engine.store.flat? s.engine.locale m.space k with
        | none => simp [hgroup]
        | some w =>
          have hw : w = v := Option.some.inj ((Store.get_of_flat? hflat).symm.trans hv)
          simp [hw]
      · rw [if_neg hgroup]
        simp [hgroup, hv]
    · rw [if_neg hplace]
      simp [hplace, hv]

/-- A phrase book with one text, in a group. -/
def grouped : Service :=
  addCatalog Host.refuse "en" "ns" [("a", .group [("b", .text "x")])]
    (create { settings := { locale := "en" } }).2

/-- The text stays while other keys are missed. -/
theorem get_phrase_grouped :
    grouped.engine.store.get "en" "ns" "a.b" = some "x" ∧
      (phrase Host.refuse "ns:c" {} grouped).2.engine.store.get "en" "ns" "a.b" = some "x" := by
  have hfound : grouped.engine.store.get "en" "ns" "a.b" = some "x" := by decide +kernel
  refine ⟨hfound, (get_phrase (by rfl) "ns:c" {} hfound).2 ?_⟩
  rintro ⟨m, hm, -, -, hgroup, -⟩
  have hc : grouped.engine.missed? "ns:c" {} = some ⟨"ns", "c"⟩ := by decide +kernel
  obtain rfl := Option.some.inj (hc.symm.trans hm)
  exact absurd hgroup (by decide +kernel)

/-- Asking for the group itself loses the text. -/
theorem get_phrase_group :
    (create { settings := { locale := "en" } }).1.isOk = true ∧ grouped.registry = [] ∧
      grouped.engine.store.get "en" "ns" "a.b" = some "x" ∧
      (phrase Host.refuse "ns:a" {} grouped).2.engine.store.get "en" "ns" "a.b" = none := by
  refine ⟨by decide +kernel, by rfl, by decide +kernel, by decide +kernel⟩

end Service

end Phrasebook
