import Phrasebook.Proofs.Service.Repetition

/-!
# The order of a search

A text is searched name by name: under the name for the exact count, under the plural form, and
under the plain name, each in the current locale before the fallback locale. `searched_in_order`
says that the first text on this way is the one that is found, whatever the strategy for plural
forms, which could take the name for the exact count only where the search has ended before.
-/

namespace Phrasebook

namespace Engine

variable {e : Engine} {l n k : String}

/-- The names to try, in order. The plural form does not depend on the texts. -/
def names (e : Engine) (l k : String) : Option Float → List String
  | none => [k]
  | some count =>
    [Plural.exactName k count, (Plural.resolve e.settings.plural l k count).name, k]

/-- The places to look at, in order: each name in each locale. -/
def places (e : Engine) (l k : String) (count : Option Float) : List (String × String) :=
  (e.names l k count).flatMap fun name => (e.chain l).map fun l' => (name, l')

theorem findSome?_flatMap {α β γ : Type} (f : α → List β) (g : β → Option γ) (xs : List α) :
    (xs.flatMap f).findSome? g = xs.findSome? fun x => (f x).findSome? g := by
  induction xs with
  | nil => rfl
  | cons x xs ih =>
    rw [List.flatMap_cons, List.findSome?_append, List.findSome?_cons, ih]
    cases (f x).findSome? g <;> rfl

theorem lookup_eq_none_iff {ls : List String} :
    e.lookup ls n k = none ↔ ∀ l' ∈ ls, e.store.get l' n k = none :=
  List.findSome?_eq_none_iff

/-- A plural form is only asked for once there is no text for the exact count, so that the form is
the one that does not depend on the texts. -/
theorem resolveChecked_of_lookup {count : Float}
    (h : e.lookup (e.chain l) n (Plural.exactName k count) = none) :
    Plural.resolveChecked e.settings.plural l k count
        (fun name => (e.chain l).any fun l' => e.store.has l' n name) =
      Plural.resolve e.settings.plural l k count := by
  refine Plural.resolveChecked_of_absent (List.any_eq_false.2 fun l' hl' => ?_)
  have hget := lookup_eq_none_iff.1 h l' hl'
  simp [Store.has, hget]

theorem findTemplate_eq_names (e : Engine) (l n k : String) (count : Option Float) :
    e.findTemplate l n k count = (e.names l k count).findSome? (e.lookup (e.chain l) n) := by
  cases count with
  | none =>
    show e.lookup (e.chain l) n k = [k].findSome? _
    rw [List.findSome?_singleton]
  | some count =>
    cases hexact : e.lookup (e.chain l) n (Plural.exactName k count) with
    | some text =>
      unfold findTemplate names
      dsimp only
      rw [hexact, List.findSome?_cons, hexact]
      rfl
    | none =>
      rw [findTemplate_of_exact hexact]
      unfold names
      rw [List.findSome?_cons, hexact, List.findSome?_cons, List.findSome?_singleton]
      cases e.lookup (e.chain l) n (Plural.resolve e.settings.plural l k count).name <;> rfl

theorem findTemplate_eq_places (e : Engine) (l n k : String) (count : Option Float) :
    e.findTemplate l n k count =
      (e.places l k count).findSome? fun p => e.store.get p.2 n p.1 := by
  rw [findTemplate_eq_names, places, findSome?_flatMap]
  congr 1
  funext name
  rw [List.findSome?_map]
  rfl

theorem places_of_fallback {f : String} (hf : e.settings.fallback = some f) (hne : f ≠ l) :
    e.places l k none = [(k, l), (k, f)] ∧
      ∀ count, e.places l k (some count) =
        [(Plural.exactName k count, l), (Plural.exactName k count, f),
          ((Plural.resolve e.settings.plural l k count).name, l),
          ((Plural.resolve e.settings.plural l k count).name, f), (k, l), (k, f)] := by
  have hchain : e.chain l = [l, f] := by simp [chain, hf, hne]
  refine ⟨?_, fun count => ?_⟩
  · simp [places, names, hchain]
  · simp [places, names, hchain]

theorem places_of_no_fallback (hf : ∀ f, e.settings.fallback = some f → f = l)
    (count : Option Float) : e.places l k count = (e.names l k count).map fun name => (name, l) := by
  have hchain : e.chain l = [l] := by
    unfold chain
    split
    · rename_i f hsome
      rw [if_pos (hf f hsome)]
    · rfl
  rw [places, hchain, List.map_eq_flatMap]
  rfl

/-- The text that is found is the first one on the way through the places, and none is found exactly
where none of them has one. The way is the same for both strategies: what the suffix strategy would
do about an exact count that has a text is never asked for. -/
theorem searched_in_order (e : Engine) (l n k : String) (count : Option Float) :
    ((∀ text, e.findTemplate l n k count = some text ↔
        ∃ before p after, e.places l k count = before ++ p :: after ∧
          e.store.get p.2 n p.1 = some text ∧ ∀ q ∈ before, e.store.get q.2 n q.1 = none) ∧
      (e.findTemplate l n k count = none ↔
        ∀ p ∈ e.places l k count, e.store.get p.2 n p.1 = none)) ∧
    (∀ f, e.settings.fallback = some f → f ≠ l →
      e.places l k none = [(k, l), (k, f)] ∧
      ∀ x, e.places l k (some x) =
        [(Plural.exactName k x, l), (Plural.exactName k x, f),
          ((Plural.resolve e.settings.plural l k x).name, l),
          ((Plural.resolve e.settings.plural l k x).name, f), (k, l), (k, f)]) ∧
    ((∀ f, e.settings.fallback = some f → f = l) →
      e.places l k none = [(k, l)] ∧
      ∀ x, e.places l k (some x) =
        [(Plural.exactName k x, l), ((Plural.resolve e.settings.plural l k x).name, l), (k, l)]) ∧
    ∀ x, e.lookup (e.chain l) n (Plural.exactName k x) = none →
      Plural.resolveChecked e.settings.plural l k x
          (fun name => (e.chain l).any fun l' => e.store.has l' n name) =
        Plural.resolve e.settings.plural l k x := by
  refine ⟨⟨fun text => ?_, ?_⟩, fun f hf hne => places_of_fallback hf hne, fun hf => ?_,
    fun x hx => resolveChecked_of_lookup hx⟩
  · rw [findTemplate_eq_places]
    exact List.findSome?_eq_some_iff
  · rw [findTemplate_eq_places]
    exact List.findSome?_eq_none_iff
  · exact ⟨places_of_no_fallback hf none, fun x => places_of_no_fallback hf (some x)⟩

end Engine

/-- One item and a half is found where the point of the number leads: in a group of the fallback
locale. -/
def halves : Engine where
  settings := { locale := "de", fallback := some "en" }
  locale := "de"
  formatLocale := "de"
  store :=
    [("de", [("ns", [("item_plural", .text "Dinge")])]),
      ("en", [("ns", [("item_1", .group [("5", .text "an item and a half")])])])]

theorem searched_in_order_halves :
    let x : Float := Float.ofScientific 15 true 1
    halves.settings.fallback = some "en" ∧ "en" ≠ "de" ∧
      (halves.places "de" "item" (some x)).take 3 =
        [("item_1.5", "de"), ("item_1.5", "en"), ("item_plural", "de")] ∧
      halves.findTemplate "de" "ns" "item" (some x) = some "an item and a half" := by
  intro x
  obtain ⟨⟨hfirst, -⟩, hplaces, -, -⟩ := halves.searched_in_order "de" "ns" "item" (some x)
  obtain ⟨-, horder⟩ := hplaces "en" rfl (by decide)
  have hexact : Plural.exactName "item" x = "item_1.5" := by decide +kernel
  have hplural : (Plural.resolve halves.settings.plural "de" "item" x).name = "item_plural" := by
    decide +kernel
  have hx := horder x
  rw [hexact, hplural] at hx
  refine ⟨rfl, by decide, by rw [hx]; rfl, (hfirst "an item and a half").2 ?_⟩
  exact ⟨[("item_1.5", "de")], ("item_1.5", "en"), _, hx, by decide +kernel, by decide +kernel⟩

end Phrasebook
