import Mathlib.Data.List.TakeWhile
import Mathlib.Data.String.Basic
import Mathlib.Tactic.WLOG
import Phrasebook.Proofs.Store.Footprint

/-!
# Writes to a store

A write puts a text or a whole catalog into one namespace. `Store.writes_local` says which look-ups
it can change: those in its own namespace and, for a text, only the look-up of its name and of names
that lead through a group of that name. Writes to different namespaces may change places.
-/

namespace Phrasebook

namespace Dictionary

variable {α : Type}

theorem insert_insert_self (key : String) (value value' : α) (d : Dictionary α) :
    insert key value (insert key value' d) = insert key value d := by
  induction d with
  | nil => simp [insert]
  | cons e rest ih =>
    obtain ⟨k, v⟩ := e
    by_cases hk : k = key
    · simp [insert, hk]
    · by_cases hl : key < k
      · simp [insert, hk, hl]
      · simp [insert, hk, hl, ih]

theorem insert_comm {key key' : String} (h : key ≠ key') (value value' : α) (d : Dictionary α) :
    insert key value (insert key' value' d) = insert key' value' (insert key value d) := by
  wlog hlt : key < key' generalizing key key' value value'
  · exact (this h.symm value' value ((lt_or_gt_of_ne h).resolve_left hlt)).symm
  have hnot : ¬ key' < key := hlt.not_gt
  induction d with
  | nil => simp [insert, h, h.symm, hlt, hnot]
  | cons e rest ih =>
    obtain ⟨k, v⟩ := e
    -- where the entry stands among the two keys
    rcases lt_trichotomy k key with hk | rfl | hk
    · have hk' : k < key' := hk.trans hlt
      simp [insert, hk.ne, hk'.ne, hk.not_gt, hk'.not_gt, ih]
    · simp [insert, h, hnot]
    · rcases lt_trichotomy k key' with hk' | rfl | hk'
      · simp [insert, hk, hk.ne', hk'.ne, hk'.not_gt, h, hnot]
      · simp [insert, hk, h, h.symm, hnot]
      · simp [insert, hk, hk', hk.ne', hk'.ne', hlt, h, h.symm, hnot]

end Dictionary

namespace Catalog

/-- The part of a name before its first point. -/
def firstPart (name : String) : String :=
  String.ofList (name.toList.takeWhile (· != '.'))

theorem firstGroup?_eq (name : String) :
    firstGroup? name = if '.' ∈ name.toList then some (firstPart name) else none := by
  unfold firstGroup? firstPart
  rw [Text.head?_pieces]
  rfl

theorem firstPart_eq_self {name : String} (h : '.' ∉ name.toList) : firstPart name = name := by
  have hall : ∀ c ∈ name.toList, (c != '.') = true := by
    intro c hc
    rw [bne_iff_ne]
    rintro rfl
    exact h hc
  rw [firstPart, List.takeWhile_eq_self_iff.2 hall, String.ofList_toList]

/-- A name other than that of a group leads through the group exactly if it begins with its name. -/
theorem firstGroup?_eq_some_iff {name group : String} (h : name ≠ group) :
    firstGroup? name = some group ↔ firstPart name = group := by
  rw [firstGroup?_eq]
  by_cases hdot : '.' ∈ name.toList
  · rw [if_pos hdot, Option.some.injEq]
  · rw [if_neg hdot, firstPart_eq_self hdot]
    simp [h]

end Catalog

namespace Store

variable {s : Store} {l n l' n' : String}

theorem setCatalog_comm (h : (l, n) ≠ (l', n')) (c c' : Catalog) (s : Store) :
    (s.setCatalog l n c).setCatalog l' n' c' = (s.setCatalog l' n' c').setCatalog l n c := by
  unfold setCatalog
  by_cases hl : l = l'
  · subst hl
    have hn : n ≠ n' := fun hn => h (by rw [hn])
    rw [Dictionary.insert_insert_self, Dictionary.insert_insert_self,
      Dictionary.find?_insert_self, Dictionary.find?_insert_self, Option.getD_some,
      Option.getD_some, Dictionary.insert_comm hn]
  · rw [Dictionary.insert_comm hl, Dictionary.find?_insert_of_ne hl,
      Dictionary.find?_insert_of_ne (Ne.symm hl)]

theorem catalog?_setCatalog_of_ne (h : (l', n') ≠ (l, n)) (c : Catalog) :
    (s.setCatalog l n c).catalog? l' n' = s.catalog? l' n' := by
  rw [catalog?_setCatalog, if_neg fun he => h (by rw [he.1, he.2])]

/-! ### Writes -/

/-- What is written: a text under its whole name, or all that a namespace has. -/
inductive Change where
  | text (name value : String)
  | catalog (c : Catalog)

/-- A change of one namespace. -/
structure Write where
  locale : String
  space : String
  change : Change

def Write.place (w : Write) : String × String :=
  (w.locale, w.space)

/-- The catalog of the namespace after the change. -/
def Change.apply : Change → Option Catalog → Catalog
  | .text name value, old => Dictionary.insert name (.text value) (old.getD [])
  | .catalog c, _ => c

def write (s : Store) (w : Write) : Store :=
  match w.change with
  | .text name value => s.set w.locale w.space name value
  | .catalog c => s.setCatalog w.locale w.space c

/-- Carries out the writes in order. -/
def writeAll (s : Store) (ws : List Write) : Store :=
  ws.foldl write s

theorem write_eq (s : Store) (w : Write) :
    s.write w = s.setCatalog w.locale w.space (w.change.apply (s.catalog? w.locale w.space)) := by
  unfold write
  cases w.change <;> rfl

theorem catalog?_write_self (s : Store) (w : Write) :
    (s.write w).catalog? w.locale w.space =
      some (w.change.apply (s.catalog? w.locale w.space)) := by
  rw [write_eq, catalog?_setCatalog, if_pos ⟨rfl, rfl⟩]

theorem catalog?_write_of_ne {w : Write} (h : (l, n) ≠ w.place) :
    (s.write w).catalog? l n = s.catalog? l n := by
  rw [write_eq]
  exact catalog?_setCatalog_of_ne h _

theorem write_comm {w w' : Write} (h : w.place ≠ w'.place) (s : Store) :
    (s.write w).write w' = (s.write w').write w := by
  have hfirst := catalog?_write_of_ne (s := s) (Ne.symm h)
  have hsecond := catalog?_write_of_ne (s := s) h
  rw [write_eq (s.write w) w', write_eq (s.write w') w, hfirst, hsecond, write_eq s w, write_eq s w']
  exact setCatalog_comm h _ _ s

/-- What a namespace has after a run of writes is decided by what it had and by the writes to it. -/
theorem catalog?_writeAll {t : Store} (h : s.catalog? l n = t.catalog? l n) (ws : List Write) :
    (s.writeAll ws).catalog? l n = (t.writeAll (ws.filter (·.place = (l, n)))).catalog? l n := by
  induction ws generalizing s t with
  | nil => exact h
  | cons w ws ih =>
    by_cases hw : w.place = (l, n)
    · obtain ⟨rfl, rfl⟩ := Prod.mk.inj hw
      rw [List.filter_cons_of_pos (by simp [Write.place])]
      refine ih ?_
      rw [catalog?_write_self, catalog?_write_self, h]
    · rw [List.filter_cons_of_neg (by simpa using hw)]
      refine ih ?_
      rw [catalog?_write_of_ne (Ne.symm hw), h]

theorem get_congr {t : Store} (h : s.catalog? l n = t.catalog? l n) (k : String) :
    s.get l n k = t.get l n k := by
  unfold get
  rw [h]

/-- A text is found under its name, whatever the name is. In its namespace a look-up is changed only
if the name begins with that of the text and a point, and then only a text under the whole name is
left. A catalog alone decides what is found in its namespace. No other namespace is changed, so that
writes to different ones may change places, and what is found in a namespace after a run of writes
is decided by those to it. -/
theorem writes_local (s : Store) (l n : String) :
    (∀ k text, let t := s.set l n k text
      t.get l n k = some text ∧
      (∀ l' n' k', (l', n') ≠ (l, n) → t.get l' n' k' = s.get l' n' k') ∧
      ∀ k', k' ≠ k → t.get l n k' =
        if Catalog.firstPart k' = k then s.flat? l n k' else s.get l n k') ∧
    (∀ c, let t := s.setCatalog l n c
      (∀ k, t.get l n k = c.find? k) ∧
      ∀ l' n' k', (l', n') ≠ (l, n) → t.get l' n' k' = s.get l' n' k') ∧
    (∀ w w' : Write, w.place ≠ w'.place → (s.write w).write w' = (s.write w').write w) ∧
    ∀ (ws : List Write) (k : String),
      (s.writeAll ws).get l n k = (s.writeAll (ws.filter (·.place = (l, n)))).get l n k := by
  refine ⟨fun k text => ⟨?_, fun l' n' k' h => ?_, fun k' hk => ?_⟩,
    fun c => ⟨fun k => ?_, fun l' n' k' h => ?_⟩, fun w w' h => write_comm h s, fun ws k => ?_⟩
  · rw [get_set, if_pos ⟨rfl, rfl⟩, if_pos rfl]
  · exact get_congr (catalog?_setCatalog_of_ne h _) k'
  · rw [get_set, if_pos ⟨rfl, rfl⟩, if_neg hk]
    simp only [Catalog.firstGroup?_eq_some_iff hk]
  · rw [get_setCatalog, if_pos ⟨rfl, rfl⟩]
  · exact get_congr (catalog?_setCatalog_of_ne h _) k'
  · exact get_congr (catalog?_writeAll rfl ws) k

def homeCatalog : Catalog :=
  [("hero", .group [("cta", .text "Go"), ("title", .text "Welcome")]),
    ("hero.title", .text "Flat"), ("title", .text "Home")]

def homeStore : Store :=
  [("en", [("home", homeCatalog), ("shop", [("title", .text "Shop")])])]

/-- A text takes the place of a group, and of the names that led through the group only the one
with a text of its own is left. -/
theorem writes_local_hero :
    let t := homeStore.set "en" "home" "hero" "Hero"
    let w : Write := ⟨"en", "home", .text "hero" "Hero"⟩
    let w' : Write := ⟨"en", "shop", .catalog homeCatalog⟩
    (("en", "shop") ≠ ("en", "home") ∧ "hero.cta" ≠ "hero" ∧ "title" ≠ "hero" ∧
      w.place ≠ w'.place) ∧
    homeStore.get "en" "home" "hero.cta" = some "Go" ∧
    t.get "en" "home" "hero" = some "Hero" ∧
    t.get "en" "home" "hero.cta" = none ∧
    t.get "en" "home" "hero.title" = some "Flat" ∧
    t.get "en" "home" "title" = some "Home" ∧
    t.get "en" "shop" "title" = some "Shop" ∧
    (homeStore.write w).write w' = (homeStore.write w').write w := by
  intro t w w'
  have hplaces : w.place ≠ w'.place := by decide
  obtain ⟨htext, -, hcomm, -⟩ := writes_local homeStore "en" "home"
  obtain ⟨hself, hother, hnames⟩ := htext "hero" "Hero"
  refine ⟨⟨by decide, by decide, by decide, hplaces⟩, by decide +kernel, hself, ?_, ?_, ?_, ?_,
    hcomm w w' hplaces⟩
  · exact (hnames "hero.cta" (by decide)).trans (by decide +kernel)
  · exact (hnames "hero.title" (by decide)).trans (by decide +kernel)
  · exact (hnames "title" (by decide)).trans (by decide +kernel)
  · exact (hother "en" "shop" "title" (by decide)).trans (by decide +kernel)

end Store

end Phrasebook
