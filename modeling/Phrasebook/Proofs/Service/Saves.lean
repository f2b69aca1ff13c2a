import Phrasebook.Proofs.Service.Delivery

/-!
# How often a missing key is saved

A catalog that the loader delivers takes the place of the placeholders of its namespace, so that a
key that it lacks is missed and saved once more. `saver_asked` counts this: the saver is asked once
for a key, and once more for a delivery after the first miss that leaves the key without a text.
-/

namespace Phrasebook

/-- The catalog has no text for the name, or has it in a group that has been overwritten. -/
def Engine.drops (l n k : String) (e : Engine) (c : Catalog) : Bool :=
  (c.flat? k).isNone && ((c.find? k).isNone || e.overwritten l n k)

/-- A catalog leaves the key vacant unless it has a text under the whole name. -/
theorem Engine.vacancy_install (e : Engine) (l n k : String) (c : Catalog) :
    (e.install l n c).vacancy l n k = if (c.flat? k).isNone then 1 else 0 := by
  have hflat : (e.store.setCatalog l n c).flat? l n k = c.flat? k := by
    unfold Store.flat?
    rw [Store.catalog?_setCatalog, if_pos ⟨rfl, rfl⟩, Option.bind_some]
  unfold vacancy
  rw [← hflat]
  rfl

/-- No load is under way for a namespace that is loaded. -/
def Engine.Sealed (l n : String) (e : Engine) : Prop :=
  (l, n) ∈ e.loaded → (l, n) ∉ loadsOf e.tasks

namespace Service

variable {l n k : String} {depth : Nat} {s t : Service} {m : Move}

/-- How often the saver was asked, or is still to be asked, to save the key. -/
def saves (l n k : String) (s : Service) : Nat :=
  s.demand (·.save? == some (l, n, k))

/-- The catalogs that are delivered for the namespace after a save of the key was started. -/
def reloads (depth : Nat) (l n k : String) : List Move → Service → List Catalog
  | [], _ => []
  | m :: ms, s =>
    ((delivered? l n s m).filter fun _ => s.saves l n k != 0).toList ++
      reloads depth l n k ms (step depth s m)

/-! ### What a move does to the key -/

/-- A move records, asks a worker, or delivers a catalog for the namespace. -/
inductive Course (l n k : String) (s : Service) : Move → Service → Prop
  | records {m t new e} (hd : delivered? l n s m = none) (ha : t.asks = s.asks)
      (h : Engine.Records l n k s.engine new e) (hstore : t.engine.store = e.store)
      (hloaded : t.engine.loaded = e.loaded) (ht : t.engine.tasks.Sublist e.tasks) :
      Course l n k s m t
  | asked {index job} (h : s.engine.readyJob? index = some job) :
      Course l n k s (.ask index) (ask index job s)
  | delivered {index c r new e t} (h : s.engine.askedJob? index = some (.load l n))
      (ha : t.asks = s.asks) (hr : Engine.Records l n k (s.engine.install l n c) new e)
      (ht : t.engine = e.endLoad l n r) :
      Course l n k s (.loadEnds index (.found c)) t

theorem Passage.course (h : Passage (Notes l n k) l n s m t) : Course l n k s m t := by
  cases h with
  | leads hd hr ht =>
    obtain ⟨ha, new, hs⟩ := hr
    exact .records hd (ht.asks.trans ha) hs ht.store ht.loaded ht.tasks
  | asked h => exact .asked h
  | delivered h hr ht =>
    obtain ⟨ha, new, hs⟩ := hr
    subst ht
    exact .delivered h ha hs rfl

theorem step_course (k : String) (depth : Nat) (hm : m.Keeps (Spares l n))
    (ho : s.Obeys (Spares l n)) :
    Course l n k s m (step depth s m) ∧ (step depth s m).Obeys (Spares l n) := by
  obtain ⟨hpassage, hobeys⟩ := step_passage (conduct_notes l n k) (fun _ _ _ h => h) depth hm ho
  exact ⟨hpassage.course, hobeys⟩

theorem Course.sealed (h : Course l n k s m t) (ht : s.engine.Tracked)
    (hs : s.engine.Sealed l n) : t.engine.Sealed l n := by
  cases h with
  | @records m t new e hd ha hr hstore hloaded hsub =>
    intro hmem hload
    rw [hloaded, hr.space] at hmem
    have hload' : (l, n) ∈ loadsOf e.tasks := (hsub.filterMap _).subset hload
    rw [hr.tasks, loadsOf_append, List.mem_append] at hload'
    rcases hload' with hload' | hload'
    · exact hs hmem hload'
    · exact (hr.loads _ hload').1 hmem
  | asked hj =>
    intro hmem hload
    simp only [ask, mapEngine, Host.log, loadsOf_setState] at hload
    exact hs hmem hload
  | @delivered index c r new e t hj ha hr he =>
    have hinstalled : (s.engine.install l n c).Tracked :=
      ⟨ht.loads_nodup, ht.loads, ht.saves_nodup, ht.saves⟩
    have htracked : e.Tracked := hinstalled.starts hr.toStarts
    intro _ hload
    rw [he, Engine.endLoad_tasks, loadsOf_dropLoad] at hload
    exact (htracked.loads_nodup.mem_erase_iff.1 hload).1 rfl

/-! ### What a run does to the key -/

/-- What becomes of the key, when the tasks of `s` go on with the texts of `e`. -/
structure Counts (l n k : String) (e : Engine) (s t : Service) : Prop where
  bound : t.saves l n k + t.engine.vacancy l n k ≤ s.saves l n k + e.vacancy l n k
  lost : e.overwritten l n k = true → t.engine.overwritten l n k = true
  kept : e.store.get l n k ≠ none → t.engine.overwritten l n k = true ∨
    t.engine.store.get l n k ≠ none ∧ t.saves l n k ≤ s.saves l n k

theorem Counts.of_store (hstore : t.engine.store = s.engine.store)
    (hsaves : t.saves l n k = s.saves l n k) : Counts l n k s.engine s t := by
  constructor
  · have hvacancy : t.engine.vacancy l n k = s.engine.vacancy l n k := by
      unfold Engine.vacancy
      rw [hstore]
    omega
  · unfold Engine.overwritten
    rw [hstore]
    exact id
  · rw [hstore, hsaves]
    exact fun hget => .inr ⟨hget, Nat.le_refl _⟩

theorem Counts.of_records {e e' : Engine} {new : List Task}
    (hr : Engine.Records l n k e new e') (he : e.tasks = s.engine.tasks) (ha : t.asks = s.asks)
    (hstore : t.engine.store = e'.store) (ht : t.engine.tasks.Sublist e'.tasks) :
    Counts l n k e s t := by
  have hsaves : t.saves l n k ≤ s.saves l n k + (savesOf new).count (l, n, k) := by
    have htasks : e'.tasks = s.engine.tasks ++ new := by rw [hr.tasks, he]
    have hready := Engine.ready_le (·.save? == some (l, n, k)) ht
    rw [Engine.ready_append _ htasks hr.ready, countP_save] at hready
    unfold saves demand
    rw [ha]
    omega
  have hvacancy : t.engine.vacancy l n k = e'.vacancy l n k := by
    unfold Engine.vacancy
    rw [hstore]
  have hover : t.engine.overwritten l n k = e'.overwritten l n k := by
    unfold Engine.overwritten
    rw [hstore]
  have hcount := hr.count
  refine ⟨by omega, ?_, fun hget => ?_⟩
  · rw [hover]
    exact hr.lost
  · rw [hover, hstore]
    by_cases hnew : (l, n, k) ∈ savesOf new
    · exact .inl ((hr.missed hnew).resolve_left hget)
    · have hzero := List.count_eq_zero.2 hnew
      exact (hr.kept hget).symm.imp_right fun hget' => ⟨hget', by omega⟩

/-- What is known of the key after the deliveries `cs`. -/
structure Ledger (l n k : String) (cs : List Catalog) (s : Service) : Prop where
  obeys : s.Obeys (Spares l n)
  tracked : s.engine.Tracked
  sealed : s.engine.Sealed l n
  once : cs.length ≤ if (l, n) ∈ s.engine.loaded then 1 else 0
  bound : s.saves l n k + s.engine.vacancy l n k ≤ 1 + cs.countP fun c => (c.flat? k).isNone
  /-- A text in a group is lost only together with the group. -/
  kept : ∀ c ∈ cs, c.find? k ≠ none → s.engine.overwritten l n k = true ∨
    s.engine.store.get l n k ≠ none ∧ s.saves l n k ≤ 1

theorem Ledger.saves_le {cs : List Catalog} (h : Ledger l n k cs s) :
    s.saves l n k ≤ 1 + cs.countP (s.engine.drops l n k) := by
  have hsaves := h.bound
  have honce := h.once
  match cs with
  | [] => exact Nat.le_trans (Nat.le_add_right _ _) hsaves
  | [c] =>
    rw [List.countP_singleton] at hsaves ⊢
    unfold Engine.drops
    by_cases hflat : (c.flat? k).isNone = true
    · by_cases hlost : ((c.find? k).isNone || s.engine.overwritten l n k) = true
      · rw [hflat, hlost, Bool.and_self, if_pos rfl]
        rw [if_pos hflat] at hsaves
        exact Nat.le_trans (Nat.le_add_right _ _) hsaves
      · simp only [Bool.or_eq_true, not_or, Bool.not_eq_true] at hlost
        have hfound : c.find? k ≠ none := by
          intro hnone
          rw [hnone] at hlost
          simp at hlost
        rcases h.kept c List.mem_cons_self hfound with ho | hkept
        · rw [ho] at hlost
          simp at hlost
        · exact Nat.le_trans hkept.2 (Nat.le_add_right _ _)
    · rw [if_neg hflat] at hsaves
      omega
  | c :: c' :: cs =>
    rw [List.length_cons, List.length_cons] at honce
    split at honce <;> omega

theorem Ledger.keep {cs : List Catalog} (h : Ledger l n k cs s)
    (hobeys : t.Obeys (Spares l n)) (htracked : t.engine.Tracked) (hsealed : t.engine.Sealed l n)
    (hspace : (l, n) ∈ t.engine.loaded ↔ (l, n) ∈ s.engine.loaded)
    (hc : Counts l n k s.engine s t) : Ledger l n k cs t := by
  refine ⟨hobeys, htracked, hsealed, ?_, Nat.le_trans hc.bound h.bound, ?_⟩
  · simp only [hspace]
    exact h.once
  · intro c hmem hfound
    rcases h.kept c hmem hfound with hover | ⟨hget, hone⟩
    · exact .inl (hc.lost hover)
    · rcases hc.kept hget with hover | ⟨hget', hle⟩
      · exact .inl hover
      · exact .inr ⟨hget', Nat.le_trans hle hone⟩

/-- The first catalog for the namespace counts only if a save was started before it. -/
theorem Ledger.deliver {c : Catalog} (h : Ledger l n k [] s) (hobeys : t.Obeys (Spares l n))
    (htracked : t.engine.Tracked) (hsealed : t.engine.Sealed l n)
    (hloaded : (l, n) ∈ t.engine.loaded) (hc : Counts l n k (s.engine.install l n c) s t) :
    Ledger l n k ((some c).filter fun _ => s.saves l n k != 0).toList t := by
  have hbefore := h.bound
  have hafter := hc.bound
  rw [List.countP_nil] at hbefore
  rw [Engine.vacancy_install] at hafter
  refine ⟨hobeys, htracked, hsealed, ?_, ?_, ?_⟩
  · rw [if_pos hloaded, Option.length_toList]
    split <;> simp
  · by_cases hzero : s.saves l n k = 0
    · split at hafter <;> omega
    · have hfilter : ((some c).filter fun _ => s.saves l n k != 0) = some c := by
        simp [Option.filter, hzero]
      rw [hfilter, Option.toList_some, List.countP_singleton]
      omega
  · intro c' hc' hfound
    obtain rfl : c = c' := by
      have hmem := Option.mem_toList.1 hc'
      exact Option.some.inj (Option.mem_filter_iff.1 hmem).1
    have hget : (s.engine.install l n c).store.get l n k ≠ none := by
      show (s.engine.store.setCatalog l n c).get l n k ≠ none
      rw [Store.get_setCatalog, if_pos ⟨rfl, rfl⟩]
      exact hfound
    exact (hc.kept hget).imp_right fun hkept => ⟨hkept.1, by omega⟩

theorem Ledger.step {cs : List Catalog} (h : Ledger l n k cs s) (depth : Nat)
    (hm : m.Keeps (Spares l n)) :
    Ledger l n k
      (cs ++ ((delivered? l n s m).filter fun _ => s.saves l n k != 0).toList)
      (step depth s m) := by
  obtain ⟨hcourse, hobeys⟩ := step_course k depth hm h.obeys
  have htracked := (step_advance depth s m).tracked h.tracked
  have hsealed := hcourse.sealed h.tracked h.sealed
  generalize Service.step depth s m = t at hcourse hobeys htracked hsealed ⊢
  cases hcourse with
  | @records m t new e hd ha hr hstore hloaded hsub =>
    have hspace : (l, n) ∈ t.engine.loaded ↔ (l, n) ∈ s.engine.loaded := by
      rw [hloaded, hr.space]
    rw [hd, Option.filter_none, Option.toList_none, List.append_nil]
    exact h.keep hobeys htracked hsealed hspace (.of_records hr rfl ha hstore hsub)
  | @asked index job hj =>
    have hsaves : (ask index job s).saves l n k = s.saves l n k :=
      demand_ask (·.save? == some (l, n, k)) hj
    rw [show delivered? l n s (.ask index) = none from rfl, Option.filter_none,
      Option.toList_none, List.append_nil]
    exact h.keep hobeys htracked hsealed .rfl (.of_store rfl hsaves)
  | @delivered index c r new e t hj ha hr he =>
    have hload : (l, n) ∈ loadsOf s.engine.tasks :=
      mem_loadsOf.2 (Engine.mem_tasks_of_askedJob? hj)
    have honce := h.once
    rw [if_neg fun hmem => h.sealed hmem hload] at honce
    obtain rfl : cs = [] := List.length_eq_zero_iff.1 (Nat.le_zero.1 honce)
    have hstore : t.engine.store = e.store := by rw [he, Engine.endLoad_store]
    have hsub : t.engine.tasks.Sublist e.tasks := by
      rw [he, Engine.endLoad_tasks]
      exact List.eraseP_sublist
    have hloaded : (l, n) ∈ t.engine.loaded := by
      rw [he, Engine.endLoad_loaded, hr.space]
      exact mem_loaded_install _ _ _ _
    rw [show delivered? l n s (.loadEnds index (.found c)) = some c from if_pos hj,
      List.nil_append]
    exact h.deliver hobeys htracked hsealed hloaded (.of_records hr rfl ha hstore hsub)

theorem Ledger.run {cs : List Catalog} {ms : List Move} (h : Ledger l n k cs s) (depth : Nat)
    (hm : ∀ m ∈ ms, m.Keeps (Spares l n)) :
    Ledger l n k (cs ++ reloads depth l n k ms s) (run depth ms s) := by
  induction ms generalizing s cs with
  | nil =>
    rw [reloads, List.append_nil]
    exact h
  | cons m ms ih =>
    have hfirst := h.step depth (hm m List.mem_cons_self)
    have hrest := ih hfirst fun m' hm' => hm m' (List.mem_cons_of_mem _ hm')
    rw [List.append_assoc] at hrest
    exact hrest

theorem ledger_create (l n k : String) {p : ServicePlan}
    (hp : ∀ q ∈ p.plugins, q.1.Keeps (Spares l n)) : Ledger l n k [] (create p).2 := by
  have hblank : (blank p).Obeys (Spares l n) :=
    ⟨fun _ h => by simp [blank] at h, fun _ h => by simp [blank] at h⟩
  obtain ⟨⟨ha, new, hr⟩, hobeys⟩ := (conduct_notes l n k).create p hp hblank
  have hloaded : (l, n) ∉ (create p).2.engine.loaded := by
    rw [hr.space]
    simp [blank]
  have hbound := (Counts.of_records (s := blank p) hr rfl ha rfl (List.Sublist.refl _)).bound
  have hnone : (blank p).saves l n k = 0 := rfl
  have hvacancy : (blank p).engine.vacancy l n k ≤ 1 := by
    unfold Engine.vacancy
    split <;> decide
  refine ⟨hobeys, (exact_create p).toTracked, fun h => absurd h hloaded, ?_, ?_, ?_⟩
  · exact Nat.zero_le _
  · rw [List.countP_nil]
    omega
  · exact fun c hc => by simp at hc

/-- Without plugins a call has the saver asked for just the key that it misses, unless a save of it
is under way. -/
theorem saves_phrase (hr : s.registry = []) (key : String) (args : Arguments) :
    saves l n k (step depth s (.request (.phrase key args))) = s.saves l n k +
      if s.engine.missed? key args = some ⟨n, k⟩ ∧ s.engine.locale = l ∧ s.engine.WouldSave l n k
      then 1 else 0 := by
  have ha := (grows_request depth s (.phrase key args)).1
  have hengine := engine_phrase (answer depth) hr key args
  change (step depth s (.request (.phrase key args))).engine = _ at hengine
  generalize step depth s (.request (.phrase key args)) = t at ha hengine ⊢
  cases hm : s.engine.missed? key args with
  | none =>
    rw [hm] at hengine
    unfold saves demand
    rw [ha, hengine]
    simp
  | some m =>
    rw [hm] at hengine
    dsimp only at hengine
    obtain ⟨new, hs⟩ := Engine.recordMissing_starts s.engine s.engine.locale m.space m.name
      (args.text?.getD m.name)
    have hnew := hs.savesOf_new_of_recordMissing (Engine.name_of_missed? hm)
    rw [← hengine] at hs
    unfold saves
    rw [demand_starts _ ha hs.tasks hs.ready, countP_save, hnew]
    congr 1
    by_cases hkey : m = ⟨n, k⟩ ∧ s.engine.locale = l
    · obtain ⟨rfl, rfl⟩ := hkey
      split <;> simp [*]
    · have hother : ¬ ((s.engine.locale, m.space, m.name) = (l, n, k)) := by
        intro he
        rw [Prod.mk.injEq, Prod.mk.injEq] at he
        obtain ⟨hl, hn, hk⟩ := he
        exact hkey ⟨by rw [← hn, ← hk], hl⟩
      have hneither : ¬ (some m = some ⟨n, k⟩ ∧ s.engine.locale = l ∧ s.engine.WouldSave l n k) :=
        fun h => hkey ⟨Option.some.inj h.1, h.2.1⟩
      rw [if_neg hneither]
      split
      · exact List.count_eq_zero.2 fun hmem => hother (List.mem_singleton.1 hmem).symm
      · rfl

/-- As long as the catalogs of a namespace come from the loader alone, at most one comes after the
first miss of a key, and the saver is asked once for the key, and once more if this catalog drops
it. Then the next call that misses the key has the saver asked again. -/
theorem saver_asked (depth : Nat) {p : ServicePlan}
    (hp : ∀ q ∈ p.plugins, q.1.Keeps (Spares l n)) {ms : List Move}
    (hm : ∀ m ∈ ms, m.Keeps (Spares l n)) (k : String) :
    let s := run depth ms (create p).2
    let cs := reloads depth l n k ms (create p).2
    cs.length ≤ 1 ∧
      s.asks.countP (·.save? == some (l, n, k)) ≤ 1 + cs.countP (s.engine.drops l n k) ∧
      (s.registry = [] → ∀ key args,
        saves l n k (step depth s (.request (.phrase key args))) = s.saves l n k +
          if s.engine.missed? key args = some ⟨n, k⟩ ∧ s.engine.locale = l ∧
            s.engine.WouldSave l n k then 1 else 0) := by
  have hledger := (ledger_create l n k hp).run depth hm
  rw [List.nil_append] at hledger
  refine ⟨?_, ?_, fun hr key args => saves_phrase hr key args⟩
  · have honce := hledger.once
    split at honce <;> omega
  · have hle := hledger.saves_le
    unfold saves demand at hle
    omega

/-- A miss that is saved, a delivery, and the same call again. -/
def reloadMoves (c : Catalog) : List Move :=
  [.request (.phrase "ns:a" {}), .ask 0, .saveEnds 0 .saved, .ask 0, .loadEnds 0 (.found c),
    .request (.phrase "ns:a" {}), .ask 0]

theorem spares_reloadMoves (c : Catalog) : ∀ m ∈ reloadMoves c, m.Keeps (Spares "en" "ns") := by
  simp [reloadMoves, Move.Keeps, Spares, Request.Keeps]

/-- The catalog has the key. -/
theorem saver_asked_once :
    let s := run 1 (reloadMoves [("a", .text "x")]) (create busyPlan).2
    s.asks.countP (·.save? == some ("en", "ns", "a")) ≤ 1 ∧
      s.asks = [.save "en" "ns" "a" "a", .load "en" "ns"] := by
  have hplugins : ∀ q ∈ busyPlan.plugins, q.1.Keeps (Spares "en" "ns") := by simp [busyPlan]
  have hasked := saver_asked 1 hplugins (spares_reloadMoves [("a", .text "x")]) "a"
  have hdrops : (reloads 1 "en" "ns" "a" (reloadMoves [("a", .text "x")])
      (create busyPlan).2).countP ((run 1 (reloadMoves [("a", .text "x")])
        (create busyPlan).2).engine.drops "en" "ns" "a") = 0 := by decide +kernel
  refine ⟨?_, by decide +kernel⟩
  have hle := hasked.2.1
  rw [hdrops] at hle
  exact hle

/-- The catalog lacks the key, and the saver is asked twice though every save succeeds. -/
theorem saver_asked_twice :
    (∀ m ∈ reloadMoves [("other", .text "x")], m.Keeps (Spares "en" "ns")) ∧
      (create busyPlan).1.isOk = true ∧
      (run 1 (reloadMoves [("other", .text "x")]) (create busyPlan).2).asks =
        [.save "en" "ns" "a" "a", .load "en" "ns", .save "en" "ns" "a" "a"] :=
  ⟨spares_reloadMoves _, by decide +kernel, by decide +kernel⟩

end Service

end Phrasebook
