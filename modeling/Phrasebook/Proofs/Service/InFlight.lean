import Phrasebook.Proofs.Service.Advance

/-!
# Work in flight

`Engine.Tracked` says that every unfinished task has its marker and no job has two tasks, and
`Engine.Exact` that there are no other markers. Every move preserves the first, and every move
without a panic the second. `Bookkeeping` draws the consequences for the loader.
-/

namespace Phrasebook

/-! ### Markers and tasks -/

theorem countP_load (ts : List Task) (l n : String) :
    ts.countP (fun t => t.job == .load l n) = (loadsOf ts).count (l, n) := by
  unfold loadsOf List.count
  rw [List.countP_filterMap]
  refine List.countP_congr fun t _ => ?_
  cases t.job <;> simp [Job.load?]

theorem countP_save (ts : List Task) (l n k : String) :
    ts.countP (fun t => t.job.save? == some (l, n, k)) = (savesOf ts).count (l, n, k) := by
  unfold savesOf List.count
  rw [List.countP_filterMap]
  refine List.countP_congr fun t _ => ?_
  cases t.job <;> simp [Job.save?]

namespace Engine

/-- Tasks have markers, and no two tasks have the same. -/
structure Tracked (e : Engine) : Prop where
  loads_nodup : (loadsOf e.tasks).Nodup
  loads : ∀ p ∈ loadsOf e.tasks, p ∈ e.loading
  saves_nodup : (savesOf e.tasks).Nodup
  saves : ∀ q ∈ savesOf e.tasks, q ∈ e.saving

/-- Besides, every marker has a task. -/
structure Exact (e : Engine) : Prop extends e.Tracked where
  loading : ∀ p ∈ e.loading, p ∈ loadsOf e.tasks
  saving : ∀ q ∈ e.saving, q ∈ savesOf e.tasks

theorem mem_tasks_of_askedJob? {e : Engine} {index : Nat} {job : Job}
    (h : e.askedJob? index = some job) : ∃ t ∈ e.tasks, t.job = job := by
  obtain ⟨t, ht, hjob⟩ := Option.bind_eq_some_iff.1 h
  refine ⟨t, List.mem_of_getElem? ht, ?_⟩
  split at hjob
  · simp at hjob
  · exact Option.some.inj hjob

variable {e e' : Engine} {new : List Task} {l n k text : String}

theorem Tracked.starts (h : e.Tracked) (hs : e.Starts new e') : e'.Tracked where
  loads_nodup := by
    rw [hs.tasks, loadsOf_append]
    refine List.nodup_append.2 ⟨h.loads_nodup, hs.loads_nodup, ?_⟩
    rintro p hp q hq rfl
    exact (hs.loads p hq).2 (h.loads p hp)
  loads := by
    intro p hp
    rw [hs.tasks, loadsOf_append] at hp
    rw [hs.loading]
    exact List.mem_append.2 ((List.mem_append.1 hp).imp_left (h.loads p))
  saves_nodup := by
    rw [hs.tasks, savesOf_append]
    refine List.nodup_append.2 ⟨h.saves_nodup, hs.saves_nodup, ?_⟩
    rintro p hp q hq rfl
    exact hs.saves p hq (h.saves p hp)
  saves := by
    intro p hp
    rw [hs.tasks, savesOf_append] at hp
    rw [hs.saving]
    exact List.mem_append.2 ((List.mem_append.1 hp).imp_left (h.saves p))

theorem Exact.starts (h : e.Exact) (hs : e.Starts new e') : e'.Exact where
  toTracked := h.toTracked.starts hs
  loading := by
    intro p hp
    rw [hs.loading] at hp
    rw [hs.tasks, loadsOf_append]
    exact List.mem_append.2 ((List.mem_append.1 hp).imp_left (h.loading p))
  saving := by
    intro p hp
    rw [hs.saving] at hp
    rw [hs.tasks, savesOf_append]
    exact List.mem_append.2 ((List.mem_append.1 hp).imp_left (h.saving p))

theorem endLoad_tasks (e : Engine) (l n : String) (r : LoadResult) :
    (e.endLoad l n r).tasks = e.tasks.eraseP (·.job = .load l n) := by
  cases r <;> rfl

theorem endLoad_loading (e : Engine) (l n : String) {r : LoadResult} (hr : r ≠ .panicked) :
    (e.endLoad l n r).loading = e.loading.filter (· != (l, n)) := by
  cases r with
  | panicked => exact absurd rfl hr
  | found c => rfl
  | absent => rfl
  | failed => rfl

theorem endLoad_saving (e : Engine) (l n : String) (r : LoadResult) :
    (e.endLoad l n r).saving = e.saving := by
  cases r <;> rfl

theorem endLoad_store (e : Engine) (l n : String) (r : LoadResult) :
    (e.endLoad l n r).store = e.store := by
  cases r <;> rfl

theorem endLoad_loaded (e : Engine) (l n : String) (r : LoadResult) :
    (e.endLoad l n r).loaded = e.loaded := by
  cases r <;> rfl

theorem Tracked.endLoad (h : e.Tracked) (l n : String) (r : LoadResult) :
    (e.endLoad l n r).Tracked where
  loads_nodup := by
    rw [endLoad_tasks, loadsOf_dropLoad]
    exact h.loads_nodup.erase _
  loads := by
    intro p hp
    rw [endLoad_tasks, loadsOf_dropLoad] at hp
    obtain ⟨hne, hp⟩ := h.loads_nodup.mem_erase_iff.1 hp
    by_cases hr : r = .panicked
    · subst hr
      exact h.loads p hp
    · rw [endLoad_loading _ _ _ hr]
      exact List.mem_filter.2 ⟨h.loads p hp, by simpa using hne⟩
  saves_nodup := by
    rw [endLoad_tasks, savesOf_dropLoad]
    exact h.saves_nodup
  saves := by
    intro q hq
    rw [endLoad_tasks, savesOf_dropLoad] at hq
    rw [endLoad_saving]
    exact h.saves q hq

theorem Exact.endLoad (h : e.Exact) (l n : String) {r : LoadResult} (hr : r ≠ .panicked) :
    (e.endLoad l n r).Exact where
  toTracked := h.toTracked.endLoad l n r
  loading := by
    intro p hp
    rw [endLoad_loading _ _ _ hr] at hp
    obtain ⟨hp, hne⟩ := List.mem_filter.1 hp
    rw [endLoad_tasks, loadsOf_dropLoad]
    exact h.loads_nodup.mem_erase_iff.2 ⟨by simpa using hne, h.loading p hp⟩
  saving := by
    intro q hq
    rw [endLoad_saving] at hq
    rw [endLoad_tasks, savesOf_dropLoad]
    exact h.saving q hq

theorem endSave_tasks (e : Engine) (l n k text : String) (r : SaveResult) :
    (e.endSave l n k text r).tasks = e.tasks.eraseP (·.job = .save l n k text) := by
  cases r <;> rfl

theorem endSave_saving (e : Engine) (l n k text : String) {r : SaveResult} (hr : r ≠ .panicked) :
    (e.endSave l n k text r).saving = e.saving.filter (· != (l, n, k)) := by
  cases r with
  | panicked => exact absurd rfl hr
  | saved => rfl
  | failed => rfl

theorem endSave_loading (e : Engine) (l n k text : String) (r : SaveResult) :
    (e.endSave l n k text r).loading = e.loading := by
  cases r <;> rfl

theorem endSave_loaded (e : Engine) (l n k text : String) (r : SaveResult) :
    (e.endSave l n k text r).loaded = e.loaded := by
  cases r <;> rfl

theorem Tracked.endSave (h : e.Tracked) (ht : ∃ t ∈ e.tasks, t.job = .save l n k text)
    (r : SaveResult) : (e.endSave l n k text r).Tracked where
  loads_nodup := by
    rw [endSave_tasks, loadsOf_dropSave]
    exact h.loads_nodup
  loads := by
    intro p hp
    rw [endSave_tasks, loadsOf_dropSave] at hp
    rw [endSave_loading]
    exact h.loads p hp
  saves_nodup := by
    rw [endSave_tasks, savesOf_dropSave h.saves_nodup ht]
    exact h.saves_nodup.erase _
  saves := by
    intro q hq
    rw [endSave_tasks, savesOf_dropSave h.saves_nodup ht] at hq
    obtain ⟨hne, hq⟩ := h.saves_nodup.mem_erase_iff.1 hq
    by_cases hr : r = .panicked
    · subst hr
      exact h.saves q hq
    · rw [endSave_saving _ _ _ _ _ hr]
      exact List.mem_filter.2 ⟨h.saves q hq, by simpa using hne⟩

theorem Exact.endSave (h : e.Exact) (ht : ∃ t ∈ e.tasks, t.job = .save l n k text)
    {r : SaveResult} (hr : r ≠ .panicked) : (e.endSave l n k text r).Exact where
  toTracked := h.toTracked.endSave ht r
  loading := by
    intro p hp
    rw [endSave_loading] at hp
    rw [endSave_tasks, loadsOf_dropSave]
    exact h.loading p hp
  saving := by
    intro q hq
    rw [endSave_saving _ _ _ _ _ hr] at hq
    obtain ⟨hq, hne⟩ := List.mem_filter.1 hq
    rw [endSave_tasks, savesOf_dropSave h.saves_nodup ht]
    exact h.saves_nodup.mem_erase_iff.2 ⟨by simpa using hne, h.saving q hq⟩

theorem Tracked.load_once (h : e.Tracked) (l n : String) :
    e.tasks.countP (fun t => t.job == .load l n) ≤ 1 := by
  rw [countP_load]
  exact List.nodup_iff_count.1 h.loads_nodup _

theorem Tracked.save_once (h : e.Tracked) (l n k : String) :
    e.tasks.countP (fun t => t.job.save? == some (l, n, k)) ≤ 1 := by
  rw [countP_save]
  exact List.nodup_iff_count.1 h.saves_nodup _

theorem Tracked.ready_load_le (h : e.Tracked) (l n : String) : e.ready (· == .load l n) ≤ 1 := by
  refine Nat.le_trans (List.countP_mono_left fun t _ ht => ?_) (h.load_once l n)
  rw [Bool.and_eq_true] at ht
  exact ht.2

end Engine

namespace Service

variable {depth : Nat} {s t : Service} {m : Move} {l n : String}

/-! ### What each move preserves -/

theorem Advance.tracked (h : Advance s m t) (ht : s.engine.Tracked) : t.engine.Tracked := by
  cases h with
  | starts ha hs =>
    have ht' := ht.starts hs
    exact ⟨ht'.loads_nodup, ht'.loads, ht'.saves_nodup, ht'.saves⟩
  | asked hj =>
    refine ⟨?_, ?_, ?_, ?_⟩
    all_goals simp only [ask, mapEngine, Host.log, loadsOf_setState, savesOf_setState]
    · exact ht.loads_nodup
    · exact ht.loads
    · exact ht.saves_nodup
    · exact ht.saves
  | loadEnded hj ha hs hn hf hor hsteady he =>
    rw [he]
    exact (ht.starts hs).endLoad _ _ _
  | saveEnded hj =>
    rw [finishSave_eq]
    exact ht.endSave (Engine.mem_tasks_of_askedJob? hj) _

theorem Advance.exact (h : Advance s m t) (hm : m.Orderly) (hquiet : s.Steady)
    (ht : s.engine.Exact) : t.engine.Exact := by
  have htracked := h.tracked ht.toTracked
  cases h with
  | starts ha hs =>
    have ht' := ht.starts hs
    exact ⟨htracked, ht'.loading, ht'.saving⟩
  | asked hj =>
    refine ⟨htracked, ?_, ?_⟩
    all_goals simp only [ask, mapEngine, Host.log, loadsOf_setState, savesOf_setState]
    · exact ht.loading
    · exact ht.saving
  | @loadEnded index r r' l' n' new e _ hj ha hs hn hf hor hsteady he =>
    have hr : r ≠ .panicked := by
      rintro rfl
      exact hm
    rw [he, hsteady hquiet]
    exact (ht.starts hs).endLoad l' n' hr
  | @saveEnded index r l' n' k text hj =>
    have hr : r ≠ .panicked := by
      rintro rfl
      exact hm
    rw [finishSave_eq]
    exact ht.endSave (Engine.mem_tasks_of_askedJob? hj) hr

theorem Advance.loaded (h : Advance s m t) : ∀ p ∈ s.engine.loaded, p ∈ t.engine.loaded := by
  intro p hp
  cases h with
  | starts ha hs => exact hs.loaded p hp
  | asked hj => exact hp
  | loadEnded hj ha hs hn hf hor hsteady he =>
    rw [he, Engine.endLoad_loaded]
    exact hs.loaded p hp
  | saveEnded hj =>
    rw [finishSave_eq]
    show p ∈ (s.engine.endSave _ _ _ _ _).loaded
    rw [Engine.endSave_loaded]
    exact hp

/-- A load that is new was started for a namespace that is neither loaded nor being loaded. -/
theorem Advance.new_load (h : Advance s m t) {p : String × String}
    (hp : p ∉ loadsOf s.engine.tasks) (hp' : p ∈ loadsOf t.engine.tasks) :
    p ∉ s.engine.loading ∧ p ∉ s.engine.loaded := by
  have among : ∀ {new : List Task} {e : Engine}, s.engine.Starts new e → p ∈ loadsOf e.tasks →
      p ∉ s.engine.loading ∧ p ∉ s.engine.loaded := by
    intro new e hs hmem
    rw [hs.tasks, loadsOf_append] at hmem
    have hnew := (List.mem_append.1 hmem).resolve_left hp
    exact ⟨(hs.loads p hnew).2, (hs.loads p hnew).1⟩
  cases h with
  | starts ha hs => exact among hs hp'
  | asked hj =>
    simp only [ask, mapEngine, Host.log, loadsOf_setState] at hp'
    exact absurd hp' hp
  | loadEnded hj ha hs hn hf hor hsteady he =>
    rw [he, Engine.endLoad_tasks, loadsOf_dropLoad] at hp'
    exact among hs (List.mem_of_mem_erase hp')
  | saveEnded hj =>
    rw [finishSave_eq] at hp'
    change p ∈ loadsOf (s.engine.endSave _ _ _ _ _).tasks at hp'
    rw [Engine.endSave_tasks, loadsOf_dropSave] at hp'
    exact absurd hp' hp

/-- A marker of a load goes away with the answer of the loader, and a catalog would have been
installed. -/
theorem Advance.load_ended (h : Advance s m t) (hp : (l, n) ∈ s.engine.loading)
    (hp' : (l, n) ∉ t.engine.loading) :
    ∃ index r, m = .loadEnds index r ∧ s.engine.askedJob? index = some (.load l n) ∧
      r ≠ .panicked ∧ ∀ c, r = .found c → (l, n) ∈ t.engine.loaded := by
  cases h with
  | starts ha hs =>
    rw [show t.engine.loading = _ from hs.loading] at hp'
    exact absurd (List.mem_append_left _ hp) hp'
  | asked hj => exact absurd hp hp'
  | @loadEnded index r r' l' n' new e _ hj ha hs hn hf hor hsteady he =>
    have hmid : (l, n) ∈ e.loading := by
      rw [hs.loading]
      exact List.mem_append_left _ hp
    rw [he] at hp' ⊢
    have hend : r' ≠ .panicked := by
      rintro rfl
      exact hp' hmid
    obtain rfl : r' = r := hor.resolve_right hend
    rw [Engine.endLoad_loading _ _ _ hend, List.mem_filter] at hp'
    have heq : (l, n) = (l', n') := by
      by_cases heq : (l, n) = (l', n')
      · exact heq
      · exact absurd ⟨hmid, by simpa using heq⟩ hp'
    rw [Prod.mk.injEq] at heq
    obtain ⟨rfl, rfl⟩ := heq
    refine ⟨index, r', rfl, hj, hend, fun c hc => ?_⟩
    rw [Engine.endLoad_loaded]
    exact hf c hc
  | saveEnded hj =>
    rw [finishSave_eq] at hp'
    change (l, n) ∉ (s.engine.endSave _ _ _ _ _).loading at hp'
    rw [Engine.endSave_loading] at hp'
    exact absurd hp hp'

/-! ### How often the loader is asked -/

/-- For a namespace that is loaded or being loaded there is no more to ask than before. -/
theorem Advance.demand_le (h : Advance s m t)
    (hl : (l, n) ∈ s.engine.loaded ∨ (l, n) ∈ s.engine.loading) :
    t.engine.ready (· == .load l n) ≤ s.engine.ready (· == .load l n) ∧
      demand (· == .load l n) t ≤ demand (· == .load l n) s := by
  have keep : ∀ {new : List Task} {e : Engine}, s.engine.Starts new e →
      e.ready (· == .load l n) = s.engine.ready (· == .load l n) := by
    intro new e hs
    have hnew : (new.countP fun t => t.job == .load l n) = 0 := by
      rw [countP_load, List.count_eq_zero]
      exact fun hmem => hl.elim (hs.loads _ hmem).1 (hs.loads _ hmem).2
    have hready := Engine.ready_append (· == .load l n) hs.tasks hs.ready
    rw [hnew] at hready
    exact hready
  have settle : ∀ {u : Service}, u.asks = s.asks →
      u.engine.ready (· == .load l n) ≤ s.engine.ready (· == .load l n) →
      u.engine.ready (· == .load l n) ≤ s.engine.ready (· == .load l n) ∧
        demand (· == .load l n) u ≤ demand (· == .load l n) s := by
    intro u ha hready
    unfold demand
    rw [ha]
    exact ⟨hready, Nat.add_le_add_left hready _⟩
  cases h with
  | starts ha hs =>
    have hready := keep hs
    exact settle ha (Nat.le_of_eq hready)
  | @asked index job hj =>
    have hdemand := demand_ask (· == .load l n) hj
    refine ⟨?_, Nat.le_of_eq hdemand⟩
    unfold demand at hdemand
    rw [asks_ask, List.countP_append] at hdemand
    omega
  | @loadEnded index r r' l' n' new e _ hj ha hs hn hf hor hsteady he =>
    have hsub : t.engine.tasks.Sublist e.tasks := by
      rw [he, Engine.endLoad_tasks]
      exact List.eraseP_sublist
    have hle := Engine.ready_le (· == .load l n) hsub
    rw [keep hs] at hle
    exact settle ha hle
  | @saveEnded index r l' n' k text hj =>
    have hsub : (s.engine.endSave l' n' k text r).tasks.Sublist s.engine.tasks := by
      rw [Engine.endSave_tasks]
      exact List.eraseP_sublist
    rw [finishSave_eq]
    exact settle rfl (Engine.ready_le (· == .load l n) hsub)

theorem run_loaded (depth : Nat) (ms : List Move) (p : String × String) (h : p ∈ s.engine.loaded) :
    p ∈ (run depth ms s).engine.loaded :=
  run_induction (fun s => p ∈ s.engine.loaded)
    (fun s m (_ : True) h => (step_advance depth s m).loaded p h) (fun _ _ => trivial) h

theorem run_tracked (depth : Nat) (ms : List Move) (h : s.engine.Tracked) :
    (run depth ms s).engine.Tracked :=
  run_induction (fun s => s.engine.Tracked)
    (fun s m (_ : True) h => (step_advance depth s m).tracked h) (fun _ _ => trivial) h

theorem run_exact (depth : Nat) {ms : List Move} (hm : ∀ m ∈ ms, m.Orderly) (hs : s.Steady)
    (h : s.engine.Exact) : (run depth ms s).engine.Exact :=
  (run_induction (fun s => s.Steady ∧ s.engine.Exact)
    (fun s m hm h => ⟨h.1.step hm.steady, (step_advance depth s m).exact hm h.1 h.2⟩) hm ⟨hs, h⟩).2

/-- For a namespace that is loaded only a task that is there already can ask the loader. -/
theorem asked_of_loaded (ms : List Move) (h : (l, n) ∈ s.engine.loaded) :
    (run depth ms s).asks.count (.load l n) ≤
      s.asks.count (.load l n) + s.engine.ready (· == .load l n) := by
  have hdemand : (l, n) ∈ (run depth ms s).engine.loaded ∧
      demand (· == .load l n) (run depth ms s) ≤ demand (· == .load l n) s := by
    refine run_induction (fun t => (l, n) ∈ t.engine.loaded ∧
      demand (· == .load l n) t ≤ demand (· == .load l n) s)
      (fun t m (_ : True) ht => ?_) (fun _ _ => trivial) ⟨h, Nat.le_refl _⟩
    have hstep := step_advance depth t m
    exact ⟨hstep.loaded _ ht.1, Nat.le_trans (hstep.demand_le (.inl ht.1)).2 ht.2⟩
  exact Nat.le_trans (Nat.le_add_right _ _) hdemand.2

theorem ready_pos {i : Nat} (h : s.engine.readyJob? i = some (.load l n)) :
    0 < s.engine.ready (· == .load l n) := by
  obtain ⟨t, ht, hjob⟩ := Option.bind_eq_some_iff.1 h
  split at hjob
  · rename_i hstate
    refine List.countP_pos_iff.2 ⟨t, List.mem_of_getElem? ht, ?_⟩
    rw [hstate, Option.some.inj hjob]
    exact beq_self_eq_true _
  · simp at hjob

theorem mem_loadsOf_of_ready_pos {e : Engine} (h : 0 < e.ready (· == .load l n)) :
    (l, n) ∈ loadsOf e.tasks := by
  obtain ⟨t, ht, hp⟩ := List.countP_pos_iff.1 h
  rw [Bool.and_eq_true] at hp
  exact mem_loadsOf.2 ⟨t, ht, by simpa using hp.2⟩

/-- Once the loader is asked, no task is left that still has to ask it for the same. -/
theorem ready_ask {i : Nat} (h : s.engine.Tracked)
    (hj : s.engine.readyJob? i = some (.load l n)) :
    (ask i (.load l n) s).engine.ready (· == .load l n) = 0 := by
  have hdemand := demand_ask (· == .load l n) hj
  have hle := h.ready_load_le l n
  unfold demand at hdemand
  rw [asks_ask, List.countP_append, List.countP_singleton, if_pos (by simp)] at hdemand
  omega

theorem Advance.new_ready (h : Advance s m t) (ht : s.engine.Tracked)
    (h0 : s.engine.ready (· == .load l n) = 0) (h1 : 0 < t.engine.ready (· == .load l n)) :
    (l, n) ∉ loadsOf s.engine.tasks := by
  intro hmem
  have hle := (h.demand_le (.inr (ht.loads _ hmem))).1
  omega

/-- A task for a load of the namespace is started from `s` to `t`. -/
def StartsLoad (l n : String) (s t : Service) : Prop :=
  (l, n) ∉ loadsOf s.engine.tasks ∧ (l, n) ∈ loadsOf t.engine.tasks

/-- Between two times that the loader is asked for a namespace, the first load ended without a
catalog, and then another was started while the namespace was not loaded. -/
theorem ends_and_starts_between {i j : Nat} {ms : List Move} (hs : s.Steady)
    (h : s.engine.Exact) (hm : ∀ m ∈ ms, m.Orderly) (hi : s.engine.readyJob? i = some (.load l n))
    (hj : (run depth (.ask i :: ms) s).engine.readyJob? j = some (.load l n)) :
    ∃ a index r b m c, ms = a ++ .loadEnds index r :: b ++ m :: c ∧ (r = .absent ∨ r = .failed) ∧
      (run depth (.ask i :: a) s).engine.askedJob? index = some (.load l n) ∧
      (l, n) ∉ (run depth (.ask i :: a ++ .loadEnds index r :: b) s).engine.loaded ∧
      StartsLoad l n (run depth (.ask i :: a ++ .loadEnds index r :: b) s)
        (run depth (.ask i :: a ++ .loadEnds index r :: b ++ [m]) s) := by
  have hask : step depth s (.ask i) = ask i (.load l n) s := by
    rw [step, hi]
  have hexact : (step depth s (.ask i)).engine.Exact :=
    (step_advance depth s _).exact trivial hs h
  have hidle : ¬ 0 < (step depth s (.ask i)).engine.ready (· == .load l n) := by
    rw [hask, ready_ask h.toTracked hi]
    exact Nat.lt_irrefl 0
  rw [run_cons] at hj
  -- the later task is not there yet when the first is asked
  obtain ⟨front, m, c, rfl, hnone, hsome⟩ :=
    exists_move (P := fun s => 0 < s.engine.ready (· == .load l n)) hidle (ready_pos hj)
  have hfront : ∀ m' ∈ front, m'.Orderly := fun m' h => hm m' (by simp [h])
  have hexact' := run_exact depth hfront (hs.step (m := .ask i) trivial) hexact
  have hnew := (step_advance depth _ m).new_ready hexact'.toTracked (by omega) hsome
  have hstarted := mem_loadsOf_of_ready_pos hsome
  have hclear := (step_advance depth _ m).new_load hnew hstarted
  -- so the first has ended before the later one is started
  have hpending : ¬ (l, n) ∉ (step depth s (.ask i)).engine.loading := by
    rw [hask]
    exact fun hnot => hnot (h.loads _ (mem_loadsOf_of_ready_pos (ready_pos hi)))
  obtain ⟨a, m', b, rfl, hbefore, hafter⟩ :=
    exists_move (P := fun s => (l, n) ∉ s.engine.loading) hpending hclear.1
  obtain ⟨index, r, rfl, hasked, hr, hfound⟩ :=
    (step_advance depth _ m').load_ended (Classical.not_not.1 hbefore) hafter
  have hempty : r = .absent ∨ r = .failed := by
    cases r with
    | found c =>
      have hloaded := run_loaded depth b (l, n) (hfound c rfl)
      rw [run_append] at hclear
      exact absurd hloaded hclear.2
    | absent => exact .inl rfl
    | failed => exact .inr rfl
    | panicked => exact absurd rfl hr
  refine ⟨a, index, r, b, m, c, by simp, hempty, hasked, hclear.2, hnew, ?_⟩
  rw [run_append]
  exact hstarted

theorem loaded_addCatalog (s : Service) (l n : String) (c : Catalog) :
    (l, n) ∈ (step depth s (.request (.addCatalog l n c))).engine.loaded := by
  have hsafe := conduct_grows.answer_safe (Q := fun _ => True) depth
  obtain ⟨⟨-, new, hs⟩, -⟩ :=
    conduct_grows.notify hsafe (mapEngine s (·.install l n c)) (obeys_true _)
  exact hs.loaded _ (mem_loaded_install s.engine l n c)

theorem loaded_finishLoad {index : Nat} {c : Catalog}
    (h : s.engine.askedJob? index = some (.load l n)) :
    (l, n) ∈ (step depth s (.loadEnds index (.found c))).engine.loaded := by
  have hsafe := conduct_grows.answer_safe (Q := fun _ => True) depth
  obtain ⟨⟨-, new, hs⟩, -⟩ :=
    conduct_grows.tell hsafe l n c (mapEngine s (·.install l n c)) (obeys_true _)
  have hmem := hs.loaded _ (mem_loaded_install s.engine l n c)
  rw [step, h]
  dsimp only
  rw [finishLoad_found]
  show (l, n) ∈ (Engine.endLoad _ l n _).loaded
  rw [Engine.endLoad_loaded]
  exact hmem

/-- What is always true of the work in flight. -/
structure Bookkeeping (depth : Nat) (s : Service) : Prop where
  loading : ∀ l n, (l, n) ∈ s.engine.loading ↔ ∃ t ∈ s.engine.tasks, t.job = .load l n
  loads_once : ∀ l n, s.engine.tasks.countP (fun t => t.job == .load l n) ≤ 1
  saving : ∀ l n k, (l, n, k) ∈ s.engine.saving ↔
    ∃ t ∈ s.engine.tasks, ∃ text, t.job = .save l n k text
  saves_once : ∀ l n k, s.engine.tasks.countP (fun t => t.job.save? == some (l, n, k)) ≤ 1
  /-- A load is started only for a namespace that is neither loaded nor being loaded. -/
  starts : ∀ m l n, StartsLoad l n s (step depth s m) →
    (l, n) ∉ s.engine.loading ∧ (l, n) ∉ s.engine.loaded
  loaded : ∀ m, ∀ p ∈ s.engine.loaded, p ∈ (step depth s m).engine.loaded
  /-- Where a catalog is installed, by the host or by a load, the namespace is loaded. -/
  installed : ∀ l n c, (l, n) ∈ (step depth s (.request (.addCatalog l n c))).engine.loaded ∧
    ∀ index, s.engine.askedJob? index = some (.load l n) →
      (l, n) ∈ (step depth s (.loadEnds index (.found c))).engine.loaded
  /-- Without a background no request changes a marker. -/
  still : s.engine.background = false → ∀ r,
    (step depth s (.request r)).engine.loading = s.engine.loading ∧
      (step depth s (.request r)).engine.saving = s.engine.saving
  between : ∀ i j l n ms, (∀ m ∈ ms, m.Orderly) → s.engine.readyJob? i = some (.load l n) →
    (run depth (.ask i :: ms) s).engine.readyJob? j = some (.load l n) →
    ∃ a index r b m c, ms = a ++ .loadEnds index r :: b ++ m :: c ∧ (r = .absent ∨ r = .failed) ∧
      (run depth (.ask i :: a) s).engine.askedJob? index = some (.load l n) ∧
      (l, n) ∉ (run depth (.ask i :: a ++ .loadEnds index r :: b) s).engine.loaded ∧
      StartsLoad l n (run depth (.ask i :: a ++ .loadEnds index r :: b) s)
        (run depth (.ask i :: a ++ .loadEnds index r :: b ++ [m]) s)
  /-- Once a namespace is loaded, only a task that was started before asks the loader for it, and
  there is at most one. -/
  again : ∀ l n, (l, n) ∈ s.engine.loaded → s.engine.ready (· == .load l n) ≤ 1 ∧
    ∀ ms, (run depth ms s).asks.count (.load l n) ≤
      s.asks.count (.load l n) + s.engine.ready (· == .load l n)

theorem Bookkeeping.of_exact (depth : Nat) (hs : s.Steady) (h : s.engine.Exact) :
    Bookkeeping depth s where
  loading := fun l n => by
    rw [← mem_loadsOf]
    exact ⟨h.loading _, h.loads _⟩
  loads_once := h.load_once
  saving := fun l n k => by
    rw [← mem_savesOf]
    exact ⟨h.saving _, h.saves _⟩
  saves_once := h.save_once
  starts := fun m _ _ hnew => (step_advance depth s m).new_load hnew.1 hnew.2
  loaded := fun m => (step_advance depth s m).loaded
  installed := fun l n c => ⟨loaded_addCatalog s l n c, fun _ => loaded_finishLoad⟩
  still := fun hb r => by
    obtain ⟨-, new, hs⟩ := grows_request depth s r
    rw [hs.loading, hs.saving, hs.idle hb]
    exact ⟨List.append_nil _, List.append_nil _⟩
  between := fun _ _ _ _ _ hm hi hj => ends_and_starts_between hs h hm hi hj
  again := fun l n hl => ⟨h.ready_load_le l n, fun ms => asked_of_loaded ms hl⟩

theorem exact_create (p : ServicePlan) : (create p).2.engine.Exact := by
  have hblank : (blank p).engine.Exact := by
    constructor
    · constructor <;> simp [blank]
    · simp [blank]
    · simp [blank]
  obtain ⟨⟨-, new, hs⟩, -⟩ :=
    conduct_grows.create p (fun q _ => q.1.keeps_true) (obeys_true _)
  exact hblank.starts hs

/-- The bookkeeping is exact after every run in which no worker and no listener panics, with
whatever plugins. -/
theorem bookkeeping_run (depth : Nat) (p : ServicePlan) {ms : List Move}
    (hm : ∀ m ∈ ms, m.Orderly) : Bookkeeping depth (run depth ms (create p).2) :=
  .of_exact depth (run_steady depth (fun m h => (hm m h).steady) (steady_create p))
    (run_exact depth hm (steady_create p) (exact_create p))

/-- A phrase book with a loader and a saver. -/
def busyPlan : ServicePlan where
  settings := { locale := "en", saveMissing := true }
  hasLoader := true
  hasSaver := true

/-- Two misses, with a load that fails between them. -/
def busyMoves : List Move :=
  [.request (.phrase "ns:a" {}), .ask 1, .loadEnds 1 .failed, .ask 0,
    .request (.phrase "ns:b" {}), .ask 2]

theorem bookkeeping_busyMoves :
    Bookkeeping 1 (run 1 busyMoves (create busyPlan).2) ∧
      (run 1 busyMoves (create busyPlan).2).asks =
        [.load "en" "ns", .save "en" "ns" "a" "a", .load "en" "ns"] :=
  ⟨bookkeeping_run 1 busyPlan (by simp [busyMoves, Move.Orderly]), by decide +kernel⟩

/-- A load that fails, a second that is started, and a catalog from the host before the loader is
asked for the second. -/
def overtakenMoves : List Move :=
  [.request (.phrase "ns:a" {}), .ask 1, .loadEnds 1 .failed, .request (.phrase "ns:b" {}),
    .request (.addCatalog "en" "ns" [("a", .text "x")])]

/-- The loader is asked again for a namespace that is loaded. -/
theorem asked_overtakenMoves :
    ("en", "ns") ∈ (run 1 overtakenMoves (create busyPlan).2).engine.loaded ∧
      (run 1 overtakenMoves (create busyPlan).2).asks.count (.load "en" "ns") = 1 ∧
      (run 1 (overtakenMoves ++ [.ask 2]) (create busyPlan).2).asks.count (.load "en" "ns") =
        2 := by
  decide +kernel

end Service

end Phrasebook
