import Phrasebook.Proofs.Service.Placeholder
import Phrasebook.Proofs.Service.Starts

/-!
# What calls do to a missing key

The placeholder of a missing key is stored under its whole name, and while it is there the key is
not missed again. `Engine.Records` says this of calls that install no catalog for the namespace of
the key: a save that they start uses up a vacancy.
-/

namespace Phrasebook

/-- A text is stored under a whole name, and no other name is touched. -/
theorem Store.flat?_set (s : Store) (l n name text l' n' k : String) :
    (s.set l n name text).flat? l' n' k =
      if l' = l ∧ n' = n ∧ k = name then some text else s.flat? l' n' k := by
  unfold flat? set
  rw [catalog?_setCatalog]
  by_cases hplace : l' = l ∧ n' = n
  · obtain ⟨rfl, rfl⟩ := hplace
    rw [if_pos ⟨rfl, rfl⟩, Option.bind_some, Catalog.flat?_insert]
    simp only [true_and]
    split
    · rfl
    · cases s.catalog? l' n' <;> rfl
  · rw [if_neg hplace, if_neg fun h => hplace ⟨h.1, h.2.1⟩]

namespace Engine

/-- One while no text is stored under the whole name, and none after that. -/
def vacancy (l n k : String) (e : Engine) : Nat :=
  if (e.store.flat? l n k).isNone then 1 else 0

/-- The group that the name leads through has a text in its place. -/
def overwritten (l n k : String) (e : Engine) : Bool :=
  (Catalog.firstGroup? k).any fun g => (e.store.flat? l n g).isSome

/-- To miss the key would start a save. -/
def WouldSave (l n k : String) (e : Engine) : Prop :=
  e.settings.saveMissing = true ∧ e.hasSaver = true ∧ (l, n, k) ∉ e.saving ∧ e.background = true

instance (l n k : String) (e : Engine) : Decidable (e.WouldSave l n k) :=
  inferInstanceAs (Decidable (_ ∧ _ ∧ _ ∧ _))

/-- What calls that start the tasks `new` do to the key. -/
structure Records (l n k : String) (e : Engine) (new : List Task) (e' : Engine) : Prop
    extends e.Starts new e' where
  settings : e'.settings = e.settings
  hasSaver : e'.hasSaver = e.hasSaver
  space : (l, n) ∈ e'.loaded ↔ (l, n) ∈ e.loaded
  count : (savesOf new).count (l, n, k) + e'.vacancy l n k ≤ e.vacancy l n k
  /-- The vacancy is gone, and the save is under way or not to be had. -/
  settled : e'.vacancy l n k < e.vacancy l n k → ¬ e'.WouldSave l n k
  lost : e.overwritten l n k = true → e'.overwritten l n k = true
  kept : e.store.get l n k ≠ none → e'.store.get l n k ≠ none ∨ e'.overwritten l n k = true
  missed : (l, n, k) ∈ savesOf new → e.store.get l n k = none ∨ e'.overwritten l n k = true

variable {l n k : String} {e e' e'' : Engine} {new more : List Task}

theorem vacancy_of_get (h : e.store.get l n k = none) : e.vacancy l n k = 1 := by
  unfold vacancy
  cases hf : e.store.flat? l n k with
  | none => rfl
  | some v =>
    rw [Store.get_of_flat? hf] at h
    simp at h

/-! ### Saves that a miss starts -/

theorem savesOf_requestLoad (e : Engine) (l n : String) :
    savesOf (e.requestLoad l n).tasks = savesOf e.tasks := by
  unfold requestLoad
  split
  · simp [savesOf, Job.save?]
  · rfl

theorem savesOf_requestSaveOfMissing (e : Engine) (l n k text : String) :
    savesOf (e.requestSaveOfMissing l n k text).tasks =
      savesOf e.tasks ++ if e.WouldSave l n k then [(l, n, k)] else [] := by
  unfold requestSaveOfMissing requestSave WouldSave
  by_cases hmissing : e.settings.saveMissing = true
  · simp only [hmissing, if_true, true_and]
    split
    · simp [savesOf, Job.save?]
    · simp
  · simp [hmissing]

/-- A miss starts a save of the key itself, where one is to be started, and no other. -/
theorem savesOf_recordMissing (e : Engine) (l n text : String) {k : String} (h : k ≠ "") :
    savesOf (e.recordMissing l n k text).tasks =
      savesOf e.tasks ++ if e.WouldSave l n k then [(l, n, k)] else [] := by
  rw [recordMissing_of_ne _ _ _ _ h, savesOf_requestLoad, savesOf_requestSaveOfMissing]
  rfl

theorem Starts.savesOf_new_of_recordMissing {l n k text : String} (h : k ≠ "")
    (hs : e.Starts new (e.recordMissing l n k text)) :
    savesOf new = if e.WouldSave l n k then [(l, n, k)] else [] := by
  have htasks := savesOf_recordMissing e l n text h
  rw [hs.tasks, savesOf_append] at htasks
  exact List.append_cancel_left htasks

/-- A text more does not give a group back. -/
theorem overwritten_set {l' n' name text : String}
    (hstore : e'.store = e.store.set l' n' name text) (h : e.overwritten l n k = true) :
    e'.overwritten l n k = true := by
  unfold overwritten at h ⊢
  cases hg : Catalog.firstGroup? k with
  | none =>
    rw [hg] at h
    simp at h
  | some g =>
    rw [hg, Option.any_some] at h
    rw [Option.any_some, hstore, Store.flat?_set]
    split
    · rfl
    · exact h

theorem settings_recordMissing (e : Engine) (l n k text : String) :
    (e.recordMissing l n k text).settings = e.settings ∧
      (e.recordMissing l n k text).hasSaver = e.hasSaver ∧
      (e.recordMissing l n k text).loaded = e.loaded := by
  obtain ⟨saving, loading, tasks, h⟩ := recordMissing_frame e l n k text
  rw [h]
  exact ⟨rfl, rfl, rfl⟩

namespace Records

theorem wouldSave (h : Records l n k e new e') (hw : e'.WouldSave l n k) : e.WouldSave l n k := by
  obtain ⟨hmissing, hsaver, hsaving, hbackground⟩ := hw
  rw [h.settings] at hmissing
  rw [h.hasSaver] at hsaver
  rw [h.background] at hbackground
  rw [h.saving, List.mem_append, not_or] at hsaving
  exact ⟨hmissing, hsaver, hsaving.1, hbackground⟩

theorem trans (h : Records l n k e new e') (h' : Records l n k e' more e'') :
    Records l n k e (new ++ more) e'' where
  toStarts := h.toStarts.trans h'.toStarts
  settings := h'.settings.trans h.settings
  hasSaver := h'.hasSaver.trans h.hasSaver
  space := h'.space.trans h.space
  count := by
    have hfirst := h.count
    have hsecond := h'.count
    rw [savesOf_append, List.count_append]
    omega
  settled := by
    intro hlt hw
    by_cases hmid : e'.vacancy l n k < e.vacancy l n k
    · exact h.settled hmid (h'.wouldSave hw)
    · exact h'.settled (by omega) hw
  lost := fun ho => h'.lost (h.lost ho)
  kept := by
    intro hg
    rcases h.kept hg with hg' | ho
    · exact h'.kept hg'
    · exact .inr (h'.lost ho)
  missed := by
    intro hmem
    rw [savesOf_append, List.mem_append] at hmem
    rcases hmem with hmem | hmem
    · exact (h.missed hmem).imp_right h'.lost
    · rcases h'.missed hmem with hg' | ho
      · by_cases hg : e.store.get l n k = none
        · exact .inl hg
        · exact .inr (h'.lost ((h.kept hg).resolve_left fun hne => hne hg'))
      · exact .inr ho

theorem of_catalog (hs : e.Starts [] e') (hset : e'.settings = e.settings)
    (hsaver : e'.hasSaver = e.hasSaver) (hspace : (l, n) ∈ e'.loaded ↔ (l, n) ∈ e.loaded)
    (hc : e'.store.catalog? l n = e.store.catalog? l n) : Records l n k e [] e' := by
  have hflat : ∀ name, e'.store.flat? l n name = e.store.flat? l n name := by
    intro name
    unfold Store.flat?
    rw [hc]
  have hget : e'.store.get l n k = e.store.get l n k := by
    unfold Store.get
    rw [hc]
  have hvacancy : e'.vacancy l n k = e.vacancy l n k := by
    unfold vacancy
    rw [hflat]
  refine ⟨hs, hset, hsaver, hspace, ?_, ?_, ?_, ?_, ?_⟩
  · simp [hvacancy]
  · intro hlt
    rw [hvacancy] at hlt
    exact absurd hlt (Nat.lt_irrefl _)
  · unfold overwritten
    simp only [hflat]
    exact id
  · rw [hget]
    exact .inl
  · simp

theorem refl (l n k : String) (e : Engine) : Records l n k e [] e :=
  of_catalog (.refl e) rfl rfl .rfl rfl

/-- A miss of another key: only a text in the place of the group can matter. -/
theorem miss_other {l' n' k' : String} (text : String) (hne : ¬ (l' = l ∧ n' = n ∧ k' = k))
    (e : Engine) : ∃ new, Records l n k e new (e.recordMissing l' n' k' text) := by
  obtain ⟨new, hs⟩ := recordMissing_starts e l' n' k' text
  obtain ⟨hset, hsaver, hloaded⟩ := settings_recordMissing e l' n' k' text
  by_cases hk : k' = ""
  · rw [recordMissing, if_pos hk]
    exact ⟨[], refl l n k e⟩
  have hstore : (e.recordMissing l' n' k' text).store = e.store.set l' n' k' text := by
    rw [recordMissing_store, if_neg hk]
  have hnone : (l, n, k) ∉ savesOf new := by
    rw [hs.savesOf_new_of_recordMissing hk]
    split
    · rw [List.mem_singleton, Prod.mk.injEq, Prod.mk.injEq]
      rintro ⟨hl, hn, hk⟩
      exact hne ⟨hl.symm, hn.symm, hk.symm⟩
    · simp
  have hvacancy : (e.recordMissing l' n' k' text).vacancy l n k = e.vacancy l n k := by
    have hother : ¬ (l = l' ∧ n = n' ∧ k = k') := fun h => hne ⟨h.1.symm, h.2.1.symm, h.2.2.symm⟩
    unfold vacancy
    rw [hstore, Store.flat?_set, if_neg hother]
  refine ⟨new, hs, hset, hsaver, by rw [hloaded], ?_, ?_, ?_, ?_, fun hmem => absurd hmem hnone⟩
  · have hzero := List.count_eq_zero.2 hnone
    omega
  · intro hlt
    rw [hvacancy] at hlt
    exact absurd hlt (Nat.lt_irrefl _)
  · exact overwritten_set hstore
  · intro hg
    by_cases hplace : l = l' ∧ n = n'
    · obtain ⟨rfl, rfl⟩ := hplace
      rw [hstore, Store.get_set, if_pos ⟨rfl, rfl⟩, if_neg fun hk' => hne ⟨rfl, rfl, hk'.symm⟩]
      by_cases hgroup : Catalog.firstGroup? k = some k'
      · right
        unfold overwritten
        rw [hgroup, hstore, Option.any_some, Store.flat?_set, if_pos ⟨rfl, rfl, rfl⟩]
        rfl
      · left
        rw [if_neg hgroup]
        exact hg
    · left
      rw [hstore, Store.get_set, if_neg hplace]
      exact hg

/-- A miss of the key itself: a save is started at most where the key is still vacant. -/
theorem miss (text : String) (h : Records l n k e new e') (hg : e.store.get l n k = none) :
    ∃ more, Records l n k e more (e'.recordMissing l n k text) := by
  by_cases hk : k = ""
  · rw [recordMissing, if_pos hk]
    exact ⟨new, h⟩
  obtain ⟨more, hs⟩ := recordMissing_starts e' l n k text
  obtain ⟨hset, hsaver, hloaded⟩ := settings_recordMissing e' l n k text
  have hstore : (e'.recordMissing l n k text).store = e'.store.set l n k text := by
    rw [recordMissing_store, if_neg hk]
  have hstarted := hs.savesOf_new_of_recordMissing hk
  have hfilled : (e'.recordMissing l n k text).vacancy l n k = 0 := by
    have hsame : l = l ∧ n = n ∧ k = k := ⟨rfl, rfl, rfl⟩
    unfold vacancy
    rw [hstore, Store.flat?_set, if_pos hsame]
    rfl
  have hopen := vacancy_of_get hg
  have hcount := h.count
  refine ⟨new ++ more, h.toStarts.trans hs, hset.trans h.settings, hsaver.trans h.hasSaver,
    by rw [hloaded, h.space], ?_, ?_, ?_, fun hne => absurd hg hne, fun _ => .inl hg⟩
  · rw [savesOf_append, List.count_append, hstarted, hfilled]
    split
    · rename_i hw
      have hstill : ¬ e'.vacancy l n k < e.vacancy l n k := fun hlt => h.settled hlt hw
      rw [List.count_singleton_self]
      omega
    · rw [List.count_nil]
      omega
  · intro _ hw
    have hsaving : (l, n, k) ∉ (e'.recordMissing l n k text).saving := hw.2.2.1
    rw [hs.saving, hstarted, List.mem_append, not_or] at hsaving
    have hwould : e'.WouldSave l n k := by
      refine ⟨?_, ?_, hsaving.1, ?_⟩
      · rw [← hset]
        exact hw.1
      · rw [← hsaver]
        exact hw.2.1
      · rw [← hs.background]
        exact hw.2.2.2
    rw [if_pos hwould] at hsaving
    exact hsaving.2 List.mem_cons_self
  · exact fun ho => overwritten_set hstore (h.lost ho)

theorem install {l' n' : String} (hne : ¬ (l' = l ∧ n' = n)) (c : Catalog) (e : Engine) :
    Records l n k e [] (e.install l' n' c) := by
  have hplace : ¬ (l = l' ∧ n = n') := fun h => hne ⟨h.1.symm, h.2.symm⟩
  refine of_catalog (install_starts e l' n' c) rfl rfl ?_ ?_
  · unfold Engine.install
    dsimp only
    split
    · exact .rfl
    · rw [List.mem_append, List.mem_singleton, Prod.mk.injEq]
      exact or_iff_left hplace
  · show (e.store.setCatalog l' n' c).catalog? l n = _
    rw [Store.catalog?_setCatalog, if_neg hplace]

end Records

end Engine

namespace Service

/-- What a call may ask for so that the catalogs of a namespace come from the loader alone. -/
def Spares (l n : String) : Request → Prop
  | .addCatalog locale space _ => ¬ (locale = l ∧ space = n)
  | _ => True

/-- A call records, and asks no worker. -/
def Notes (l n k : String) (s t : Service) : Prop :=
  t.asks = s.asks ∧ ∃ new, Engine.Records l n k s.engine new t.engine

theorem conduct_notes (l n k : String) : Conduct (Spares l n) (Notes l n k) where
  refl := fun s => ⟨rfl, [], .refl l n k _⟩
  trans := by
    rintro s t u ⟨ha, new, hs⟩ ⟨ha', more, hs'⟩
    exact ⟨ha'.trans ha, _, hs.trans hs'⟩
  quiet := by
    intro s t he ha
    refine ⟨ha, [], ?_⟩
    rw [he]
    exact .refl l n k _
  miss := by
    rintro s t l' n' k' count text hf ⟨ha, new, hs⟩
    refine ⟨ha, ?_⟩
    by_cases hkey : l' = l ∧ n' = n ∧ k' = k
    · obtain ⟨rfl, rfl, rfl⟩ := hkey
      exact hs.miss text (Engine.get_of_findTemplate_eq_none hf)
    · obtain ⟨more, hmore⟩ := Engine.Records.miss_other text hkey t.engine
      exact ⟨_, hs.trans hmore⟩
  install := fun s hq => ⟨rfl, [], Engine.Records.install hq _ _⟩
  relocate := fun _ _ =>
    ⟨rfl, [], .of_catalog (.nothing rfl rfl rfl (fun _ h => h) rfl) rfl rfl .rfl rfl⟩

end Service

end Phrasebook
