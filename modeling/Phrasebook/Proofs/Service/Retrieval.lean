import Phrasebook.Proofs.Key.Written
import Phrasebook.Proofs.Plugin.Frame
import Phrasebook.Proofs.Service.Additions

/-!
# Finding an added text again

A text of an added catalog is found under the key that spells its way through the groups, with a
colon or a point after the namespace. `added_path` says so for every state and every catalog; only
a placeholder can come in between, when a listener that is notified of the catalog asks for the
first group on the way.
-/

namespace Phrasebook

namespace Catalog

variable {c : Catalog} {path : List String} {v : String}

/-- A text is found along its path, unless another one is stored under the whole name. -/
theorem find?_dotted (hp : ∀ s ∈ path, Key.IsPart s) (hne : path ≠ [])
    (hv : (Entry.group c).follow path = some (.text v))
    (hflat : 2 ≤ path.length → c.flat? (Key.dotted path) = none) :
    c.find? (Key.dotted path) = some v := by
  rw [find?_eq]
  cases path with
  | nil => exact absurd rfl hne
  | cons s rest =>
    cases rest with
    | nil =>
      have hwhole : c.flat? s = some v := by
        rw [Entry.follow] at hv
        unfold flat?
        cases hs : Dictionary.find? s c with
        | none =>
          rw [hs] at hv
          simp at hv
        | some e =>
          rw [hs] at hv
          obtain rfl : e = .text v := by simpa [Entry.follow] using hv
          rfl
      rw [Key.dotted_singleton, hwhole, Option.some_or]
    | cons s' rest =>
      have hwalk : c.walk? (Key.dotted (s :: s' :: rest)) = some v := by
        unfold walk?
        rw [if_pos (Key.point_mem_dotted s s' rest), Key.pieces_dotted hne hp, hv]
        rfl
      rw [hflat (by simp), Option.none_or, hwalk]

theorem firstGroup?_dotted (hp : ∀ s ∈ path, Key.IsPart s) :
    firstGroup? (Key.dotted path) = if 2 ≤ path.length then path.head? else none := by
  unfold firstGroup?
  cases path with
  | nil => rfl
  | cons s rest =>
    cases rest with
    | nil =>
      have hpoint : '.' ∉ s.toList := (hp s List.mem_cons_self).not_mem rfl
      rw [Key.dotted_singleton, if_neg hpoint]
      rfl
    | cons s' rest =>
      have hpieces : (Text.pieces '.' (Key.dotted (s :: s' :: rest)).toList).map String.ofList =
          s :: s' :: rest := Key.pieces_dotted (by simp) hp
      rw [if_pos (Key.point_mem_dotted s s' rest), ← List.head?_map, hpieces]
      rfl

/-- A group on the way to a text is no text. -/
theorem flat?_of_follow {g : String} {gs : List String} (hg : gs ≠ [])
    (hv : (Entry.group c).follow (g :: gs) = some (.text v)) : c.flat? g = none := by
  obtain ⟨g', gs, rfl⟩ := List.exists_cons_of_ne_nil hg
  unfold flat?
  rw [Entry.follow] at hv
  cases hs : Dictionary.find? g c with
  | none => rfl
  | some e =>
    rw [hs] at hv
    cases e with
    | text w => simp [Entry.follow] at hv
    | group entries => rfl

end Catalog

theorem Engine.overwritten_of_catalog {e : Engine} {l n v : String} {c : Catalog}
    {path : List String} (h : e.store.catalog? l n = some c) (hp : ∀ s ∈ path, Key.IsPart s)
    (hv : (Entry.group c).follow path = some (.text v)) :
    e.overwritten l n (Key.dotted path) = false := by
  unfold overwritten
  rw [Catalog.firstGroup?_dotted hp]
  split
  · rename_i hlen
    have hne : path ≠ [] := by
      rintro rfl
      simp at hlen
    obtain ⟨g, gs, rfl⟩ := List.exists_cons_of_ne_nil hne
    have hgs : gs ≠ [] := by
      rintro rfl
      simp at hlen
    have hgroup : c.flat? g = none := Catalog.flat?_of_follow hgs hv
    rw [List.head?_cons, Option.any_some]
    unfold Store.flat?
    rw [h, Option.bind_some, hgroup]
    rfl
  · rfl

namespace Service

variable {l n v : String} {c : Catalog} {path : List String} {s : Service}

/-- Listeners that ask for nothing change nothing. -/
theorem notify_quiet (answer : Handler Engine) {s : Service}
    (hq : ∀ l ∈ s.engine.listeners, l.Quiet) :
    (notify answer s).2.registry = s.registry ∧ (notify answer s).2.engine = s.engine := by
  refine tellEach_frame (R := fun s t => t.registry = s.registry ∧ t.engine = s.engine)
    (fun _ => ⟨rfl, rfl⟩) (fun h h' => ⟨h'.1.trans h.1, h'.2.trans h.2⟩) (fun l hl s => ?_) s
  have hrun := Script.run_confined answer l.ticket (hq l hl (s.memory l.ticket ""))
    (s.log (.notified l.ticket s.engine))
  exact ⟨hrun.registry, hrun.engine⟩

/-- What the listeners leave of an added catalog. -/
theorem supplements_addCatalog (depth : Nat) (hr : s.registry = [])
    (hl : ∀ li ∈ s.engine.listeners, li.Keeps (Spares l n)) :
    (s.engine.install l n c).Supplements l n (addCatalog (answer depth) l n c s).engine := by
  have hobeys : (mapEngine s (·.install l n c)).Obeys (Spares l n) := by
    refine ⟨?_, hl⟩
    rw [show (mapEngine s (·.install l n c)).registry = [] from hr]
    simp
  have hsafe := (conduct_supplements l n).answer_safe depth
  exact ((conduct_supplements l n).notify hsafe _ hobeys).1

/-- A text that is still found under its key is the answer to both ways to write the key. -/
theorem retrieved (answer : Handler Engine) (hr : s.registry = []) (hw : Key.Written n path)
    (hv : s.engine.store.get s.engine.locale n (Key.dotted path) = some v) :
    ∀ key ∈ [n ++ ":" ++ Key.dotted path, n ++ "." ++ Key.dotted path],
      (phrase answer key {} s).1 = v ∧ s.knows key = true := by
  intro key hkey
  have hparse : Key.parse s.engine.settings.defaultSpace s.engine.locale key =
      ⟨n, Key.dotted path⟩ := by
    rcases List.mem_pair.1 hkey with rfl | rfl
    · exact hw.parse_colon _ _
    · exact hw.parse_point _ _
  refine ⟨?_, knows_of_get hparse hv⟩
  rw [phrase_of_get hr answer hparse rfl hv]
  rfl

/-- After a catalog was added, each of its texts is the answer to the keys that spell its path,
unless a placeholder has taken the place of the first group on the path; only what is stored under
the whole name is found then. Listeners that ask for nothing leave no such placeholder. -/
theorem added_path (depth : Nat) (hr : s.registry = []) (hl : s.engine.locale = l)
    (ho : ∀ li ∈ s.engine.listeners, li.Keeps (Spares l n)) (hw : Key.Written n path)
    (hv : (Entry.group c).follow path = some (.text v))
    (hflat : 2 ≤ path.length → c.flat? (Key.dotted path) = none) :
    let t := step depth s (.request (.addCatalog l n c))
    let overwritten := t.engine.overwritten l n (Key.dotted path)
    ((∀ li ∈ s.engine.listeners, li.Quiet) →
      t.registry = [] ∧ t.engine.locale = l ∧ overwritten = false) ∧
    (t.registry = [] → t.engine.locale = l → overwritten = false →
      ∀ key ∈ [n ++ ":" ++ Key.dotted path, n ++ "." ++ Key.dotted path],
        (phrase (answer depth) key {} t).1 = v ∧ t.knows key = true) ∧
    (overwritten = true →
      t.engine.store.get l n (Key.dotted path) = t.engine.store.flat? l n (Key.dotted path)) := by
  intro t overwritten
  have hcatalog : (s.engine.install l n c).store.catalog? l n = some c := by
    show (s.engine.store.setCatalog l n c).catalog? l n = some c
    rw [Store.catalog?_setCatalog, if_pos ⟨rfl, rfl⟩]
  have hfound : c.find? (Key.dotted path) = some v :=
    Catalog.find?_dotted hw.parts hw.ne_nil hv hflat
  refine ⟨fun hquiet => ?_, fun hr' hl' hover => ?_, Engine.get_of_overwritten⟩
  · have hnotify : t.registry = s.registry ∧ t.engine = s.engine.install l n c :=
      notify_quiet (answer depth) (s := mapEngine s (·.install l n c)) hquiet
    have hover : overwritten = false := by
      show t.engine.overwritten l n (Key.dotted path) = false
      rw [hnotify.2]
      exact Engine.overwritten_of_catalog hcatalog hw.parts hv
    refine ⟨hnotify.1.trans hr, ?_, hover⟩
    rw [hnotify.2]
    exact hl
  · have hshows : t.engine.Shows l n c.flat? c.find? :=
      (Engine.Shows.of_catalog hcatalog).supplements (supplements_addCatalog depth hr ho)
    have hget : t.engine.store.get l n (Key.dotted path) = some v := by
      refine hshows.get_of_find hfound fun hburied => ?_
      exact absurd (hburied.2.symm.trans hover) (by simp)
    rw [← hl'] at hget
    exact retrieved (answer depth) hr' hw hget

def groupedCatalog : Catalog :=
  [("a", .group [("b", .text "x")])]

/-- The group was missed before, and the text is found when the group comes. -/
theorem added_path_grouped :
    let t := step 1 (run 1 pastMoves (create busyPlan).2)
      (.request (.addCatalog "en" "ns" groupedCatalog))
    ((phrase (answer 1) "ns:a.b" {} t).1 = "x" ∧ t.knows "ns:a.b" = true) ∧
      (phrase (answer 1) "ns.a.b" {} t).1 = "x" ∧ t.knows "ns.a.b" = true := by
  have hlisteners : (run 1 pastMoves (create busyPlan).2).engine.listeners = [] := by rfl
  have hwritten : Key.Written "ns" ["a", "b"] :=
    ⟨by simp [Key.IsPart, Key.isSeparator], by simp [Key.IsPart, Key.isSeparator], by simp,
      by simp [Text.isBlank], by simp [Text.isBlank]⟩
  obtain ⟨hkept, hanswers, -⟩ := added_path (s := run 1 pastMoves (create busyPlan).2) (l := "en")
    (n := "ns") (c := groupedCatalog) (v := "x") 1 (by rfl) (by rfl)
    (by rw [hlisteners]; simp) hwritten (by rfl) (fun _ => by decide +kernel)
  obtain ⟨hr, hl, hover⟩ := hkept (by rw [hlisteners]; simp)
  exact ⟨hanswers hr hl hover "ns:a.b" (by decide +kernel),
    hanswers hr hl hover "ns.a.b" (by decide +kernel)⟩

/-- A listener asks for the group, and the text behind it is lost. -/
theorem added_path_overwritten :
    let s := step 1 (create { settings := { locale := "en" } }).2
      (.subscribe (.ask (.phrase "ns:a" {}) fun _ => .finish .nothing))
    let t := step 1 s (.request (.addCatalog "en" "ns" groupedCatalog))
    (create { settings := { locale := "en" } }).1.isOk = true ∧ t.registry = [] ∧
      t.engine.locale = "en" ∧
      (Entry.group groupedCatalog).follow ["a", "b"] = some (.text "x") ∧
      (phrase (answer 1) "ns:a.b" {} t).1 = "ns:a.b" ∧
      (phrase (answer 1) "ns.a.b" {} t).1 = "ns.a.b" ∧ t.knows "ns:a.b" = false := by
  refine ⟨by decide +kernel, by rfl, by rfl, by rfl, by decide +kernel, by decide +kernel,
    by decide +kernel⟩

end Service

end Phrasebook
