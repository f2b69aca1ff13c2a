import Phrasebook.Proofs.Service.Run
import Phrasebook.Proofs.Service.Starts

/-!
# What a move does to the background work

`Advance` has one case for each way in which a move can touch tasks, markers and workers, and
`step_advance` says that there is no other. The lemmas after it are about tasks that change their
state or end.
-/

namespace Phrasebook

namespace Service

variable {depth : Nat} {s t : Service}

/-- The ways in which a move touches the background work. -/
inductive Advance (s : Service) : Move → Service → Prop
  | starts {m t new} (ha : t.asks = s.asks)
      (h : s.engine.Starts new { t.engine with background := s.engine.background }) :
      Advance s m t
  | asked {index job} (h : s.engine.readyJob? index = some job) :
      Advance s (.ask index) (ask index job s)
  | loadEnded {index r r' l n new e t} (h : s.engine.askedJob? index = some (.load l n))
      (ha : t.asks = s.asks) (hs : s.engine.Starts new e) (hn : (l, n) ∉ loadsOf new)
      (hf : ∀ c, r = .found c → (l, n) ∈ e.loaded) (hr : r' = r ∨ r' = .panicked)
      (hsteady : s.Steady → r' = r) (ht : t.engine = e.endLoad l n r') :
      Advance s (.loadEnds index r) t
  | saveEnded {index r l n k text} (h : s.engine.askedJob? index = some (.save l n k text)) :
      Advance s (.saveEnds index r) (finishSave l n k text r s)

theorem grows_request (depth : Nat) (s : Service) (r : Request) :
    Grows s (step depth s (.request r)) :=
  (conduct_grows.answer_safe (depth + 1) r s trivial r.keeps_true s.obeys_true).1

theorem Grows.advance {m : Move} (h : Grows s t) : Advance s m t := by
  obtain ⟨ha, new, hs⟩ := h
  refine .starts ha (show s.engine.Starts new _ from ?_)
  rw [← hs.background]
  exact hs

theorem mem_loaded_install (e : Engine) (l n : String) (c : Catalog) :
    (l, n) ∈ (e.install l n c).loaded := by
  unfold Engine.install
  dsimp only
  split
  · assumption
  · exact List.mem_append_right _ List.mem_cons_self

/-- Listeners and plugins that are told of a catalog may have tasks started before the load ends. -/
theorem finishLoad_starts (depth : Nat) (l n : String) (r : LoadResult) (s : Service) :
    ∃ new e, (finishLoad (answer depth) l n r s).asks = s.asks ∧ s.engine.Starts new e ∧
      (l, n) ∉ loadsOf new ∧ (∀ c, r = .found c → (l, n) ∈ e.loaded) ∧
      (finishLoad (answer depth) l n r s).engine =
        e.endLoad l n (loadEnd (answer depth) l n s r) := by
  by_cases hr : ∃ c, r = .found c
  · obtain ⟨c, rfl⟩ := hr
    have hsafe := conduct_grows.answer_safe (Q := fun _ => True) depth
    obtain ⟨⟨ha, new, hs⟩, -⟩ :=
      conduct_grows.tell hsafe l n c (mapEngine s (·.install l n c)) (obeys_true _)
    have hinstalled := mem_loaded_install s.engine l n c
    rw [finishLoad_found]
    refine ⟨_, _, ha, (Engine.install_starts s.engine l n c).trans hs, ?_, ?_, rfl⟩
    · exact fun hmem => (hs.loads _ hmem).1 hinstalled
    · exact fun _ _ => hs.loaded _ hinstalled
  · have hnot : ∀ c, r ≠ .found c := fun c hc => hr ⟨c, hc⟩
    rw [finishLoad_of_not_found _ _ _ hnot, loadEnd_of_not_found _ _ _ hnot]
    exact ⟨[], s.engine, rfl, .refl _, by simp, fun c hc => absurd hc (hnot c), rfl⟩

theorem advance_finishLoad {index : Nat} {l n : String} {r : LoadResult}
    (h : s.engine.askedJob? index = some (.load l n)) :
    Advance s (.loadEnds index r) (finishLoad (answer depth) l n r s) := by
  obtain ⟨new, e, ha, hs, hn, hf, he⟩ := finishLoad_starts depth l n r s
  exact .loadEnded h ha hs hn hf (loadEnd_or _ l n r s) (loadEnd_of_steady depth l n r) he

/-- There is no other way. -/
theorem step_advance (depth : Nat) (s : Service) (m : Move) : Advance s m (step depth s m) := by
  have still : ∀ m, Advance s m s := fun m => Grows.advance ⟨rfl, [], .refl _⟩
  cases m with
  | request r => exact (grows_request depth s r).advance
  | subscribe script => exact .starts rfl (.nothing rfl rfl rfl (fun _ h => h) rfl)
  | unsubscribe ticket => exact .starts rfl (.nothing rfl rfl rfl (fun _ h => h) rfl)
  | background available => exact .starts rfl (.nothing rfl rfl rfl (fun _ h => h) rfl)
  | ask index =>
    rw [step]
    split
    · rename_i h
      exact .asked h
    · exact still _
  | loadEnds index r =>
    rw [step]
    split
    · rename_i h
      exact advance_finishLoad h
    · exact still _
  | saveEnds index r =>
    rw [step]
    split
    · rename_i h
      exact .saveEnded h
    · exact still _

end Service

/-! ### Tasks that change or end -/

theorem loadsOf_map_job (ts : List Task) : loadsOf ts = (ts.map (·.job)).filterMap Job.load? := by
  rw [List.filterMap_map]
  rfl

theorem savesOf_map_job (ts : List Task) : savesOf ts = (ts.map (·.job)).filterMap Job.save? := by
  rw [List.filterMap_map]
  rfl

theorem map_job_setState (index : Nat) (state : TaskState) (ts : List Task) :
    (Desk.setState index state ts).map (·.job) = ts.map (·.job) := by
  unfold Desk.setState
  induction ts generalizing index with
  | nil => simp
  | cons t ts ih =>
    cases index with
    | zero => simp
    | succ index => rw [List.modify_succ_cons, List.map_cons, List.map_cons, ih]

@[simp] theorem loadsOf_setState (index : Nat) (state : TaskState) (ts : List Task) :
    loadsOf (Desk.setState index state ts) = loadsOf ts := by
  rw [loadsOf_map_job, map_job_setState, ← loadsOf_map_job]

@[simp] theorem savesOf_setState (index : Nat) (state : TaskState) (ts : List Task) :
    savesOf (Desk.setState index state ts) = savesOf ts := by
  rw [savesOf_map_job, map_job_setState, ← savesOf_map_job]

theorem loadsOf_cons (t : Task) (ts : List Task) :
    loadsOf (t :: ts) = t.job.load?.toList ++ loadsOf ts := by
  unfold loadsOf
  rw [List.filterMap_cons]
  cases t.job.load? <;> rfl

theorem savesOf_cons (t : Task) (ts : List Task) :
    savesOf (t :: ts) = t.job.save?.toList ++ savesOf ts := by
  unfold savesOf
  rw [List.filterMap_cons]
  cases t.job.save? <;> rfl

theorem loadsOf_dropLoad (ts : List Task) (l n : String) :
    loadsOf (ts.eraseP (·.job = .load l n)) = (loadsOf ts).erase (l, n) := by
  induction ts with
  | nil => rfl
  | cons t ts ih =>
    by_cases ht : t.job = .load l n
    · rw [List.eraseP_cons_of_pos (by simp [ht]), loadsOf_cons, ht]
      simp [Job.load?]
    · rw [List.eraseP_cons_of_neg (by simp [ht]), loadsOf_cons, loadsOf_cons, ih]
      cases hj : t.job with
      | save l' n' k text => rfl
      | load l' n' =>
        have hne : (l', n') ≠ (l, n) := by
          intro he
          rw [Prod.mk.injEq] at he
          exact ht (by rw [hj, he.1, he.2])
        simp [Job.load?, hne]

theorem savesOf_dropLoad (ts : List Task) (l n : String) :
    savesOf (ts.eraseP (·.job = .load l n)) = savesOf ts := by
  induction ts with
  | nil => rfl
  | cons t ts ih =>
    by_cases ht : t.job = .load l n
    · rw [List.eraseP_cons_of_pos (by simp [ht]), savesOf_cons, ht]
      rfl
    · rw [List.eraseP_cons_of_neg (by simp [ht]), savesOf_cons, savesOf_cons, ih]

theorem loadsOf_dropSave (ts : List Task) (l n k text : String) :
    loadsOf (ts.eraseP (·.job = .save l n k text)) = loadsOf ts := by
  induction ts with
  | nil => rfl
  | cons t ts ih =>
    by_cases ht : t.job = .save l n k text
    · rw [List.eraseP_cons_of_pos (by simp [ht]), loadsOf_cons, ht]
      rfl
    · rw [List.eraseP_cons_of_neg (by simp [ht]), loadsOf_cons, loadsOf_cons, ih]

/-- The keys of the tasks that are left, where no key has two tasks. -/
theorem savesOf_dropSave {ts : List Task} {l n k text : String} (hd : (savesOf ts).Nodup)
    (h : ∃ t ∈ ts, t.job = .save l n k text) :
    savesOf (ts.eraseP (·.job = .save l n k text)) = (savesOf ts).erase (l, n, k) := by
  induction ts with
  | nil => simp at h
  | cons t ts ih =>
    rw [savesOf_cons] at hd
    by_cases ht : t.job = .save l n k text
    · rw [List.eraseP_cons_of_pos (by simp [ht]), savesOf_cons, ht]
      simp [Job.save?]
    · have hrest : ∃ t ∈ ts, t.job = .save l n k text := by
        obtain ⟨t', hmem, hjob⟩ := h
        rcases List.mem_cons.1 hmem with rfl | hmem
        · exact absurd hjob ht
        · exact ⟨t', hmem, hjob⟩
      rw [List.eraseP_cons_of_neg (by simp [ht]), savesOf_cons, savesOf_cons,
        ih (List.nodup_append.1 hd).2.1 hrest]
      cases hj : t.job with
      | load l' n' => rfl
      | save l' n' k' text' =>
        have hin : (l, n, k) ∈ savesOf ts := by
          obtain ⟨t', hmem, hjob⟩ := hrest
          exact mem_savesOf.2 ⟨t', hmem, text, hjob⟩
        have hne : (l', n', k') ≠ (l, n, k) := by
          rw [hj] at hd
          exact (List.nodup_append.1 hd).2.2 _ (by simp [Job.save?]) _ hin
        simp [Job.save?, hne]

/-! ### How often workers are asked -/

/-- How many tasks for such a job have a worker still to be asked. -/
def Engine.ready (f : Job → Bool) (e : Engine) : Nat :=
  e.tasks.countP fun t => t.state == .ready && f t.job

theorem Engine.ready_append (f : Job → Bool) {e e' : Engine} {new : List Task}
    (ht : e'.tasks = e.tasks ++ new) (hn : ∀ t ∈ new, t.state = .ready) :
    e'.ready f = e.ready f + new.countP fun t => f t.job := by
  unfold ready
  rw [ht, List.countP_append]
  congr 1
  refine List.countP_congr fun t hmem => ?_
  simp [hn t hmem]

theorem Engine.ready_le (f : Job → Bool) {e e' : Engine} (ht : e'.tasks.Sublist e.tasks) :
    e'.ready f ≤ e.ready f :=
  ht.countP_le

theorem countP_setState {f : Job → Bool} {ts : List Task} {index : Nat} {t : Task}
    (ht : ts[index]? = some t) (hr : t.state = .ready) :
    (Desk.setState index .waiting ts).countP (fun t => t.state == .ready && f t.job) +
        (if f t.job then 1 else 0) =
      ts.countP fun t => t.state == .ready && f t.job := by
  unfold Desk.setState
  induction ts generalizing index with
  | nil => simp at ht
  | cons u ts ih =>
    cases index with
    | zero =>
      obtain rfl : u = t := by simpa using ht
      rw [List.modify_zero_cons, List.countP_cons, List.countP_cons]
      simp [hr]
    | succ index =>
      have hrest := ih (by simpa using ht)
      rw [List.modify_succ_cons, List.countP_cons, List.countP_cons]
      omega

namespace Service

variable {s t : Service}

/-- How often a worker was asked, or is still to be asked, to do such a job. -/
def demand (f : Job → Bool) (s : Service) : Nat :=
  s.asks.countP f + s.engine.ready f

theorem asks_ask (index : Nat) (job : Job) (s : Service) :
    (ask index job s).asks = s.asks ++ [job] := by
  have hjob : job.event.job? = some job := by cases job <;> rfl
  show (s.journal ++ [job.event]).filterMap Event.job? = _
  rw [List.filterMap_append, List.filterMap_cons_some hjob]
  rfl

/-- A worker that is asked need not be asked any more. -/
theorem demand_ask (f : Job → Bool) {index : Nat} {job : Job}
    (h : s.engine.readyJob? index = some job) : demand f (ask index job s) = demand f s := by
  obtain ⟨t, ht, hjob⟩ := Option.bind_eq_some_iff.1 h
  have hstate : t.state = .ready ∧ t.job = job := by
    split at hjob
    · exact ⟨‹_›, Option.some.inj hjob⟩
    · simp at hjob
  have hcount := countP_setState (f := f) ht hstate.1
  unfold demand
  rw [asks_ask, List.countP_append, List.countP_singleton]
  unfold Engine.ready
  rw [hstate.2] at hcount
  show _ + (Desk.setState index .waiting s.engine.tasks).countP _ = _
  omega

theorem demand_starts (f : Job → Bool) {new : List Task} (ha : t.asks = s.asks)
    (ht : t.engine.tasks = s.engine.tasks ++ new) (hn : ∀ t ∈ new, t.state = .ready) :
    demand f t = demand f s + new.countP fun t => f t.job := by
  unfold demand
  rw [ha, Engine.ready_append f ht hn]
  omega

end Service

end Phrasebook
