import Mathlib.Data.Finset.Insert
import Mathlib.Data.String.Basic
import Phrasebook.Proofs.Plugin.Quiet
import Phrasebook.Proofs.Service.InFlight
import Phrasebook.Proofs.Service.Retrieval
import Phrasebook.Proofs.Store.Writes

/-!
# Work that ends in any order

While the host is silent, workers are asked and answer. `Tally.settle` is what one answer changes of
the texts, of what is loaded and of what is being saved, and `Tally.settle_comm` exchanges the
answers about different tasks. No job has two tasks, so `completion_order` follows for whole runs.
It is otherwise with what is being loaded: a load whose catalog makes a listener panic leaves its
mark, and which load that is can depend on the order.
-/

namespace Phrasebook

/-- The host is silent. -/
def Move.IsWork : Move → Prop
  | .ask _ => True
  | .loadEnds _ _ => True
  | .saveEnds _ _ => True
  | _ => False

theorem Move.IsWork.steady {m : Move} (hm : m.IsWork) : m.Steady := by
  cases m with
  | subscribe respond => exact hm.elim
  | _ => trivial

/-- A task with the answer of its worker, or with how it ends after all. -/
inductive Completion where
  | load (locale space : String) (r : LoadResult)
  | save (locale space name text : String) (r : SaveResult)

namespace Completion

def job : Completion → Job
  | .load l n _ => .load l n
  | .save l n k text _ => .save l n k text

def delivery? : Completion → Option ((String × String) × Catalog)
  | .load l n (.found c) => some ((l, n), c)
  | _ => none

/-- After a panic the marker stays. -/
def clearsLoading : Completion → String × String → Bool
  | .load _ _ .panicked, _ => false
  | .load l n _, p => p == (l, n)
  | .save .., _ => false

def clearsSaving : Completion → String × String × String → Bool
  | .save _ _ _ _ .panicked, _ => false
  | .save l n k _ _, q => q == (l, n, k)
  | .load .., _ => false

theorem clearsLoading_iff {x : Completion} {p : String × String} :
    x.clearsLoading p = true ↔ x.job = .load p.1 p.2 ∧ x ≠ .load p.1 p.2 .panicked := by
  obtain ⟨l, n⟩ := p
  cases x with
  | save => simp [clearsLoading, job]
  | load l' n' r => cases r <;> simp [clearsLoading, job, @eq_comm _ l, @eq_comm _ n]

theorem job_of_delivery? {x : Completion} {p : String × String} {c : Catalog}
    (h : x.delivery? = some (p, c)) : x.job = .load p.1 p.2 := by
  cases x with
  | save => simp [delivery?] at h
  | load l n r =>
    cases r with
    | found c' =>
      obtain ⟨rfl, rfl⟩ := Prod.mk.inj (Option.some.inj h)
      rfl
    | absent => simp [delivery?] at h
    | failed => simp [delivery?] at h
    | panicked => simp [delivery?] at h

end Completion

/-- What can be seen of the background work whoever panics: the texts, what is loaded, and what is
being saved. -/
structure Tally where
  store : Store
  loaded : Finset (String × String)
  saving : List (String × String × String)

namespace Tally

def deliver (t : Tally) : Option ((String × String) × Catalog) → Tally
  | some (p, c) =>
    { t with
      store := t.store.setCatalog p.1 p.2 c
      loaded := insert p t.loaded }
  | none => t

def clear (t : Tally) (x : Completion) : Tally :=
  { t with saving := t.saving.filter fun q => !x.clearsSaving q }

def settle (t : Tally) (x : Completion) : Tally :=
  (t.deliver x.delivery?).clear x

variable {x y : Completion}

theorem deliver_saving (t : Tally) (d : Option ((String × String) × Catalog)) :
    (t.deliver d).saving = t.saving := by
  cases d <;> rfl

/-- The order of the answers about different tasks does not matter. -/
theorem settle_comm (h : x.job ≠ y.job) (t : Tally) :
    (t.settle x).settle y = (t.settle y).settle x := by
  unfold settle clear
  simp only [deliver_saving, List.filter_comm]
  cases hx : x.delivery? with
  | none => cases y.delivery? <;> rfl
  | some d =>
    cases hy : y.delivery? with
    | none => rfl
    | some d' =>
      obtain ⟨⟨l, n⟩, c⟩ := d
      obtain ⟨⟨l', n'⟩, c'⟩ := d'
      have hne : (l, n) ≠ (l', n') := by
        intro he
        rw [Completion.job_of_delivery? hx, Completion.job_of_delivery? hy, he] at h
        exact h rfl
      unfold deliver
      dsimp only
      rw [Store.setCatalog_comm hne, Finset.insert_comm]

theorem foldl_settle_perm {cs cs' : List Completion} (hp : cs.Perm cs')
    (hd : (cs.map Completion.job).Nodup) (t : Tally) :
    cs.foldl settle t = cs'.foldl settle t := by
  refine hp.foldl_eq' (fun x hx y hy t => ?_) t
  by_cases hxy : x.job = y.job
  · rw [List.inj_on_of_nodup_map hd hx hy hxy]
  · exact settle_comm hxy t

end Tally

def Event.notice? : Event → Option (Nat × Engine)
  | .notified ticket found => some (ticket, found)
  | _ => none

theorem Event.Incidental.notice? {e : Event} (he : e.Incidental) : e.notice? = none := by
  cases e with
  | notified ticket found => exact he.elim
  | _ => rfl

namespace Service

variable {depth : Nat} {s t u : Service} {cs cs' es es' : List Completion} {l n : String} {m : Move}

/-- The tickets of the listeners called so far, one for each call, and what they found. -/
def notices (s : Service) : List (Nat × Engine) :=
  s.journal.filterMap Event.notice?

def notified (s : Service) : List Nat :=
  s.notices.map Prod.fst

def audience (s : Service) : List Nat :=
  s.engine.listeners.map (·.ticket)

def jobs (s : Service) : List Job :=
  s.engine.tasks.map (·.job)

def tally (s : Service) : Tally where
  store := s.engine.store
  loaded := s.engine.loaded.toFinset
  saving := s.engine.saving

/-- The task that a move completes. -/
def completed? (s : Service) : Move → Option Completion
  | .loadEnds index r =>
    match s.engine.askedJob? index with
    | some (.load l n) => some (.load l n r)
    | _ => none
  | .saveEnds index r =>
    match s.engine.askedJob? index with
    | some (.save l n k text) => some (.save l n k text r)
    | _ => none
  | _ => none

/-- How a task ends after the answer of its worker: with a panic if a listener panics. -/
def ending (depth : Nat) (s : Service) : Completion → Completion
  | .load l n r => .load l n (loadEnd (answer depth) l n s r)
  | .save l n k text r => .save l n k text r

def ended? (depth : Nat) (s : Service) (m : Move) : Option Completion :=
  (completed? s m).map (ending depth s)

/-- The tasks that are completed in a run, in order. -/
def completions (depth : Nat) : List Move → Service → List Completion
  | [], _ => []
  | m :: ms, s => (completed? s m).toList ++ completions depth ms (step depth s m)

/-- How these tasks end. -/
def endings (depth : Nat) : List Move → Service → List Completion
  | [], _ => []
  | m :: ms, s => (ended? depth s m).toList ++ endings depth ms (step depth s m)

/-- How many of the tasks bring a catalog. -/
def deliveriesOf (cs : List Completion) : Nat :=
  cs.countP fun x => x.delivery?.isSome

/-- Between `s` and `t` the tasks `cs` were completed and ended like `es`, and there was nothing else
to see. -/
structure Works (s : Service) (cs es : List Completion) (t : Service) : Prop where
  registry : t.registry = s.registry
  listeners : t.engine.listeners = s.engine.listeners
  tally : t.tally = cs.foldl Tally.settle s.tally
  jobs : (cs.map Completion.job ++ t.jobs).Perm s.jobs
  ends : es.map Completion.job = cs.map Completion.job
  loading : t.engine.loading = s.engine.loading.filter fun p => !es.any (·.clearsLoading p)
  /-- Where no listener panics, each of them is called for every catalog. -/
  notified : es = cs →
    t.notified = s.notified ++ (List.replicate (deliveriesOf cs) s.audience).flatten

theorem audience_congr (h : t.engine.listeners = s.engine.listeners) :
    t.audience = s.audience := by
  unfold audience
  rw [h]

theorem Works.obeys {Q : Request → Prop} (h : Works s cs es t) (ho : s.Obeys Q) : t.Obeys Q := by
  unfold Obeys
  rw [h.registry, h.listeners]
  exact ho

theorem Works.still (hr : t.registry = s.registry) (hl : t.engine.listeners = s.engine.listeners)
    (ht : t.tally = s.tally) (hj : t.jobs = s.jobs) (hload : t.engine.loading = s.engine.loading)
    (hn : t.notified = s.notified) : Works s [] [] t where
  registry := hr
  listeners := hl
  tally := ht
  jobs := by
    rw [hj]
    exact List.Perm.refl _
  ends := rfl
  loading := by
    rw [hload]
    exact (List.filter_true _).symm
  notified := fun _ => by
    rw [hn]
    exact (List.append_nil _).symm

theorem Works.refl (s : Service) : Works s [] [] s :=
  .still rfl rfl rfl rfl rfl rfl

theorem Works.trans (h : Works s cs es t) (h' : Works t cs' es' u) :
    Works s (cs ++ cs') (es ++ es') u where
  registry := h'.registry.trans h.registry
  listeners := h'.listeners.trans h.listeners
  tally := by rw [h'.tally, h.tally, List.foldl_append]
  jobs := by
    rw [List.map_append, List.append_assoc]
    exact (h'.jobs.append_left _).trans h.jobs
  ends := by rw [List.map_append, List.map_append, h.ends, h'.ends]
  loading := by
    rw [h'.loading, h.loading, List.filter_filter]
    refine List.filter_congr fun p _ => ?_
    rw [List.any_append, Bool.not_or, Bool.and_comm]
  notified := by
    intro he
    have hlength : es.length = cs.length := by
      rw [← List.length_map, h.ends, List.length_map]
    obtain ⟨hfirst, hrest⟩ := List.append_inj he hlength
    rw [h'.notified hrest, h.notified hfirst, audience_congr h.listeners, List.append_assoc,
      ← List.flatten_append, List.replicate_append_replicate]
    unfold deliveriesOf
    rw [List.countP_append]

/-! ### What each move does -/

theorem notices_log {e : Event} (he : e.notice? = none) (s : Service) :
    notices (s.log e) = s.notices := by
  show (s.journal ++ [e]).filterMap Event.notice? = _
  rw [List.filterMap_append, List.filterMap_cons_none he]
  exact List.append_nil _

theorem notices_undisturbed (h : Host.Undisturbed s t) : t.notices = s.notices :=
  h.filterMap fun _ he => he.notice?

theorem journal_tellOne (answer : Handler Engine) {l : Listener} (hq : l.Quiet) (s : Service) :
    ∃ es, (tellOne answer l s).2.journal = s.journal ++ .notified l.ticket s.engine :: es ∧
      es.filterMap Event.notice? = [] := by
  obtain ⟨es, hjournal, hincidental⟩ := (Script.run_undisturbed answer l.ticket
    (hq (s.memory l.ticket "")) (s.log (.notified l.ticket s.engine))).journal
  refine ⟨es, ?_, List.filterMap_eq_nil_iff.2 fun e he => (hincidental e he).notice?⟩
  rw [tellOne, hjournal]
  exact List.append_assoc _ _ _

theorem notices_tellOne (answer : Handler Engine) {l : Listener} (hq : l.Quiet) (s : Service) :
    notices (tellOne answer l s).2 = s.notices ++ [(l.ticket, s.engine)] := by
  obtain ⟨es, hjournal, hnone⟩ := journal_tellOne answer hq s
  unfold notices
  rw [hjournal, List.filterMap_append]
  exact congrArg (fun ns => s.notices ++ (l.ticket, s.engine) :: ns) hnone

theorem notified_tellEach (answer : Handler Engine) {ls : List Listener} (hq : ∀ l ∈ ls, l.Quiet)
    (s : Service) (hr : (tellEach answer ls s).1 = .returned) :
    notified (tellEach answer ls s).2 = s.notified ++ ls.map (·.ticket) := by
  induction ls generalizing s with
  | nil => exact (List.append_nil _).symm
  | cons l ls ih =>
    rcases tellEach_cons answer l ls s with ⟨-, he⟩ | ⟨-, he⟩
    · rw [he] at hr
      exact nomatch hr
    · rw [he] at hr ⊢
      rw [ih (fun l' hl' => hq l' (List.mem_cons_of_mem _ hl')) _ hr]
      unfold notified
      rw [notices_tellOne answer (hq l List.mem_cons_self), List.map_append, List.append_assoc]
      rfl

theorem tell_quiet (answer : Handler Engine) (c : Catalog) (ho : s.Obeys fun _ => False) :
    (tell answer l n c s).registry = s.registry ∧ (tell answer l n c s).engine = s.engine ∧
      ((notify answer s).1 = .returned →
        (tell answer l n c s).notified = s.notified ++ s.audience) := by
  obtain ⟨hregistry, hengine⟩ := notify_quiet answer ho.2
  rcases tell_cases answer l n c s with ⟨hpanicked, he⟩ | ⟨-, he⟩
  · rw [he, hpanicked]
    exact ⟨hregistry, hengine, fun h => nomatch h⟩
  · have hquiet : ∀ r ∈ (notify answer s).2.registry, r.QuietTo (.load l n c) := by
      intro r hr
      rw [hregistry] at hr
      exact Plugin.Quiet.quietTo (ho.1 r hr) _
    have hdispatch := Host.dispatch_undisturbed answer hquiet { locale := l, space := some n }
    have hnotices := congrArg (List.map Prod.fst) (notices_undisturbed hdispatch)
    rw [he]
    refine ⟨hdispatch.registry.trans hregistry, hdispatch.engine.trans hengine, fun h => ?_⟩
    exact hnotices.trans (notified_tellEach answer ho.2 s h)

theorem map_job_eraseP (ts : List Task) (job : Job) :
    (ts.eraseP (·.job = job)).map (·.job) = (ts.map (·.job)).erase job := by
  rw [List.erase_eq_eraseP', List.eraseP_map]
  rfl

theorem loading_endLoad (e : Engine) (l n : String) (r : LoadResult) :
    (e.endLoad l n r).loading =
      e.loading.filter fun p => !([Completion.load l n r].any (·.clearsLoading p)) := by
  simp only [List.any_cons, List.any_nil, Bool.or_false]
  cases r with
  | panicked => exact (List.filter_true _).symm
  | found c => rfl
  | absent => rfl
  | failed => rfl

theorem tally_endLoad (s : Service) (l n : String) (r : LoadResult) :
    (mapEngine s (·.endLoad l n r)).tally = s.tally := by
  cases r <;> rfl

theorem tally_endSave (s : Service) (l n k text : String) (r : SaveResult) :
    (mapEngine s (·.endSave l n k text r)).tally = s.tally.clear (.save l n k text r) := by
  have hsaving : (s.engine.endSave l n k text r).saving =
      s.engine.saving.filter fun q => !(Completion.save l n k text r).clearsSaving q := by
    cases r with
    | panicked => exact (List.filter_true _).symm
    | saved => rfl
    | failed => rfl
  unfold Tally.clear tally
  dsimp only
  rw [← hsaving]
  cases r <;> rfl

/-- The task goes after its catalog, if any, was delivered. -/
theorem works_endLoad {r r' : LoadResult} (hj : Job.load l n ∈ s.jobs)
    (hr : u.registry = s.registry) (hl : u.engine.listeners = s.engine.listeners)
    (ht : u.jobs = s.jobs) (hload : u.engine.loading = s.engine.loading)
    (hd : u.tally = s.tally.deliver (Completion.load l n r).delivery?)
    (hn : r' = r → u.notified =
      s.notified ++ (List.replicate (deliveriesOf [.load l n r]) s.audience).flatten) :
    Works s [.load l n r] [.load l n r'] (mapEngine u (·.endLoad l n r')) where
  registry := hr
  listeners := (Engine.endLoad_listeners u.engine l n r').trans hl
  tally := by
    have hclear : (s.tally.deliver (Completion.load l n r).delivery?).saving.filter
        (fun q => !(Completion.load l n r).clearsSaving q) =
          (s.tally.deliver (Completion.load l n r).delivery?).saving := List.filter_true _
    rw [tally_endLoad, hd]
    show _ = Tally.clear _ _
    unfold Tally.clear
    rw [hclear]
  jobs := by
    have hjobs : (mapEngine u (·.endLoad l n r')).jobs = s.jobs.erase (.load l n) := by
      rw [← ht]
      show (u.engine.endLoad l n r').tasks.map _ = _
      rw [Engine.endLoad_tasks, map_job_eraseP]
      rfl
    rw [hjobs]
    exact (List.perm_cons_erase hj).symm
  ends := rfl
  loading := by
    rw [← hload]
    exact loading_endLoad u.engine l n r'
  notified := by
    intro he
    obtain ⟨-, -, hr⟩ := Completion.load.inj (List.singleton_inj.1 he)
    have hnotified : (mapEngine u (·.endLoad l n r')).notified = u.notified := rfl
    rw [hnotified, hn hr]

theorem toFinset_install (e : Engine) (l n : String) (c : Catalog) :
    (e.install l n c).loaded.toFinset = insert (l, n) e.loaded.toFinset := by
  unfold Engine.install
  dsimp only
  split
  · rename_i h
    exact (Finset.insert_eq_of_mem (List.mem_toFinset.2 h)).symm
  · ext p
    simp [or_comm]

theorem works_finishLoad (depth : Nat) (ho : s.Obeys fun _ => False)
    (hj : Job.load l n ∈ s.jobs) (r : LoadResult) :
    Works s [.load l n r] [.load l n (loadEnd (answer depth) l n s r)]
      (finishLoad (answer depth) l n r s) := by
  by_cases hr : ∃ c, r = .found c
  · obtain ⟨c, rfl⟩ := hr
    obtain ⟨hregistry, hengine, hnotified⟩ :=
      tell_quiet (l := l) (n := n) (s := mapEngine s (·.install l n c)) (answer depth) c ho
    rw [finishLoad_found]
    refine works_endLoad hj hregistry ?_ ?_ ?_ ?_ fun hend => ?_
    · rw [hengine]
      rfl
    · unfold jobs
      rw [hengine]
      rfl
    · rw [hengine]
      rfl
    · unfold tally
      rw [hengine]
      show Tally.mk _ (s.engine.install l n c).loaded.toFinset _ = _
      rw [toFinset_install]
      rfl
    · rw [hnotified (returned_of_loadEnd hend)]
      exact congrArg (s.notified ++ ·) (List.append_nil _).symm
  · have hnot : ∀ c, r ≠ .found c := fun c hc => hr ⟨c, hc⟩
    have hdelivery : (Completion.load l n r).delivery? = none := by
      cases r with
      | found c => exact absurd rfl (hnot c)
      | absent => rfl
      | failed => rfl
      | panicked => rfl
    rw [finishLoad_of_not_found _ _ _ hnot, loadEnd_of_not_found _ _ _ hnot]
    refine works_endLoad hj rfl rfl rfl rfl ?_ fun _ => ?_
    · rw [hdelivery]
      rfl
    · unfold deliveriesOf
      rw [List.countP_singleton, hdelivery]
      exact (List.append_nil _).symm

theorem works_finishSave {k text : String} (hj : Job.save l n k text ∈ s.jobs) (r : SaveResult) :
    Works s [.save l n k text r] [.save l n k text r] (finishSave l n k text r s) := by
  have hjobs : (mapEngine s (·.endSave l n k text r)).jobs = s.jobs.erase (.save l n k text) := by
    show (s.engine.endSave l n k text r).tasks.map _ = _
    rw [Engine.endSave_tasks, map_job_eraseP]
    rfl
  have hloading : (s.engine.endSave l n k text r).loading =
      s.engine.loading.filter fun p =>
        !([Completion.save l n k text r].any (·.clearsLoading p)) := by
    rw [Engine.endSave_loading]
    exact (List.filter_true _).symm
  rw [finishSave_eq]
  refine ⟨rfl, Engine.endSave_listeners _ _ _ _ _ _, tally_endSave s l n k text r, ?_, rfl, hloading,
    fun _ => (List.append_nil _).symm⟩
  rw [hjobs]
  exact (List.perm_cons_erase hj).symm

theorem works_ask (s : Service) (index : Nat) (job : Job) : Works s [] [] (ask index job s) := by
  have hevent : job.event.notice? = none := by cases job <;> rfl
  refine .still rfl rfl rfl ?_ rfl ?_
  · exact map_job_setState index .waiting s.engine.tasks
  · exact congrArg (List.map Prod.fst) (notices_log hevent s)

/-- Every move of the work completes at most one task, and there is nothing else to see. -/
theorem step_works (depth : Nat) (hm : m.IsWork) (ho : s.Obeys fun _ => False) :
    Works s (completed? s m).toList (ended? depth s m).toList (step depth s m) := by
  have mem_jobs : ∀ {index job}, s.engine.askedJob? index = some job → job ∈ s.jobs := by
    intro index job h
    obtain ⟨task, hmem, hjob⟩ := Engine.mem_tasks_of_askedJob? h
    exact List.mem_map.2 ⟨task, hmem, hjob⟩
  unfold ended?
  cases m with
  | request r => exact hm.elim
  | subscribe script => exact hm.elim
  | unsubscribe ticket => exact hm.elim
  | background available => exact hm.elim
  | ask index =>
    rw [step]
    split
    · exact works_ask s index _
    · exact .refl s
  | loadEnds index r =>
    rw [step, completed?]
    cases h : s.engine.askedJob? index with
    | none => exact .refl s
    | some job =>
      cases job with
      | load l n => exact works_finishLoad depth ho (mem_jobs h) r
      | save => exact .refl s
  | saveEnds index r =>
    rw [step, completed?]
    cases h : s.engine.askedJob? index with
    | none => exact .refl s
    | some job =>
      cases job with
      | load => exact .refl s
      | save l n k text => exact works_finishSave (mem_jobs h) r

theorem run_works (depth : Nat) {ms : List Move} (hm : ∀ m ∈ ms, m.IsWork)
    (ho : s.Obeys fun _ => False) :
    Works s (completions depth ms s) (endings depth ms s) (run depth ms s) := by
  induction ms generalizing s with
  | nil => exact .refl s
  | cons m ms ih =>
    have hstep := step_works depth (hm m List.mem_cons_self) ho
    exact hstep.trans (ih (fun m' hm' => hm m' (List.mem_cons_of_mem _ hm')) (hstep.obeys ho))

/-! ### Every order -/

theorem nodup_jobs (h : s.engine.Tracked) : s.jobs.Nodup := by
  rw [List.nodup_iff_count]
  intro job
  unfold jobs List.count
  rw [List.countP_map]
  cases job with
  | load l n => exact h.load_once l n
  | save l n k text =>
    refine Nat.le_trans (List.countP_mono_left fun t _ ht => ?_) (h.save_once l n k)
    rw [Function.comp_apply, beq_iff_eq] at ht
    rw [ht]
    exact beq_self_eq_true _

theorem completions_append (ms ms' : List Move) :
    completions depth (ms ++ ms') s =
      completions depth ms s ++ completions depth ms' (run depth ms s) := by
  induction ms generalizing s with
  | nil => rfl
  | cons m ms ih =>
    rw [List.cons_append, completions, completions, ih, List.append_assoc]
    rfl

theorem askedJob?_setState {e : Engine} {index : Nat} {task : Task}
    (h : e.tasks[index]? = some task) :
    Engine.askedJob? { e with tasks := Desk.setState index .waiting e.tasks } index =
      some task.job := by
  simp [Engine.askedJob?, Desk.setState, h]

theorem exists_asked (depth : Nat) {job : Job} (h : job ∈ s.jobs) :
    ∃ ms index, (∀ m ∈ ms, m.IsWork) ∧ completions depth ms s = [] ∧
      (run depth ms s).engine.askedJob? index = some job := by
  obtain ⟨task, hmem, hjob⟩ := List.mem_map.1 h
  obtain ⟨index, htask⟩ := List.getElem?_of_mem hmem
  by_cases hready : task.state = .ready
  · refine ⟨[.ask index], index, by simp [Move.IsWork], rfl, ?_⟩
    have hjob? : s.engine.readyJob? index = some job := by
      simp [Engine.readyJob?, htask, hready, hjob]
    have hasked := askedJob?_setState htask
    rw [hjob] at hasked
    rw [run_cons, step, hjob?]
    exact hasked
  · refine ⟨[], index, by simp, rfl, ?_⟩
    simp [run, Engine.askedJob?, htask, hready, hjob]

def answerMove (index : Nat) : Completion → Move
  | .load _ _ r => .loadEnds index r
  | .save _ _ _ _ r => .saveEnds index r

theorem completed?_answerMove {index : Nat} {x : Completion}
    (h : s.engine.askedJob? index = some x.job) : completed? s (answerMove index x) = some x := by
  cases x <;> (rw [answerMove, completed?, h]; rfl)

/-- Whichever of the unfinished tasks can be completed, in every order and with all outcomes. -/
theorem exists_work (depth : Nat) (ho : s.Obeys fun _ => False) (cs : List Completion)
    (hcs : (cs.map Completion.job).Subperm s.jobs) :
    ∃ ms, (∀ m ∈ ms, m.IsWork) ∧ completions depth ms s = cs := by
  induction cs generalizing s with
  | nil => exact ⟨[], by simp, rfl⟩
  | cons x cs ih =>
    have hmem : x.job ∈ s.jobs := hcs.subset List.mem_cons_self
    obtain ⟨ms, index, hms, hnone, hasked⟩ := exists_asked depth hmem
    have hmove : (answerMove index x).IsWork := by cases x <;> trivial
    have hx := completed?_answerMove hasked
    have hwork : ∀ m ∈ ms ++ [answerMove index x], m.IsWork := by
      intro m hm
      rcases List.mem_append.1 hm with hm | hm
      · exact hms m hm
      · rw [List.mem_singleton.1 hm]
        exact hmove
    have hdone : completions depth (ms ++ [answerMove index x]) s = [x] := by
      rw [completions_append, hnone, completions, hx]
      rfl
    have hworks := run_works depth hwork ho
    rw [hdone] at hworks
    have hrest := (List.subperm_cons x.job).1 (hcs.trans hworks.jobs.symm.subperm)
    obtain ⟨ms', hms', hcs'⟩ := ih (hworks.obeys ho) hrest
    refine ⟨(ms ++ [answerMove index x]) ++ ms', fun m hm => ?_, ?_⟩
    · exact (List.mem_append.1 hm).elim (hwork m) (hms' m)
    · rw [completions_append, hdone, hcs']
      rfl

/-! ### What is still being loaded -/

/-- Among tasks for different jobs, one clears the mark unless it ends with a panic. -/
theorem any_clearsLoading (hd : (es.map Completion.job).Nodup) :
    es.any (·.clearsLoading (l, n)) = true ↔
      .load l n ∈ es.map Completion.job ∧ Completion.load l n .panicked ∉ es := by
  rw [List.any_eq_true]
  constructor
  · rintro ⟨x, hx, hclears⟩
    obtain ⟨hjob, hne⟩ := Completion.clearsLoading_iff.1 hclears
    refine ⟨List.mem_map.2 ⟨x, hx, hjob⟩, fun hpanicked => hne ?_⟩
    exact List.inj_on_of_nodup_map hd hx hpanicked hjob
  · rintro ⟨hjob, hnot⟩
    obtain ⟨x, hx, hjob⟩ := List.mem_map.1 hjob
    refine ⟨x, hx, Completion.clearsLoading_iff.2 ⟨hjob, ?_⟩⟩
    rintro rfl
    exact hnot hx

theorem Works.ends_nodup (h : Works s cs es t) (hs : s.engine.Tracked) :
    (es.map Completion.job).Nodup := by
  rw [h.ends]
  exact (List.nodup_append.1 (h.jobs.nodup_iff.2 (nodup_jobs hs))).1

/-- The mark of a load that has ended is still there only after a panic. -/
theorem Works.mem_loading (h : Works s cs es t) (hs : s.engine.Tracked)
    (hj : .load l n ∈ es.map Completion.job) :
    (l, n) ∈ t.engine.loading ↔ Completion.load l n .panicked ∈ es := by
  have hmarked : (l, n) ∈ s.engine.loading := by
    have hmem : Job.load l n ∈ s.jobs := by
      refine h.jobs.subset (List.mem_append_left _ ?_)
      rw [← h.ends]
      exact hj
    obtain ⟨task, ht, hjob⟩ := List.mem_map.1 hmem
    exact hs.loads _ (mem_loadsOf.2 ⟨task, ht, hjob⟩)
  have hclears := any_clearsLoading (l := l) (n := n) (h.ends_nodup hs)
  rw [h.loading, List.mem_filter, Bool.not_eq_true', ← Bool.not_eq_true, hclears]
  simp [hmarked, hj]

/-- After the same tasks, the same is still being loaded where the same loads end with a panic. -/
theorem Works.loading_eq_iff (h : Works s cs es t) (h' : Works s cs' es' u) (hp : cs.Perm cs')
    (hs : s.engine.Tracked) :
    t.engine.loading = u.engine.loading ↔
      ∀ l n, Completion.load l n .panicked ∈ es ↔ Completion.load l n .panicked ∈ es' := by
  have hjobs : ∀ job, job ∈ es.map Completion.job ↔ job ∈ es'.map Completion.job := by
    intro job
    rw [h.ends, h'.ends]
    exact (hp.map _).mem_iff
  constructor
  · intro heq l n
    by_cases hj : .load l n ∈ es.map Completion.job
    · rw [← h.mem_loading hs hj, ← h'.mem_loading hs ((hjobs _).1 hj), heq]
    · have hnot : ∀ {es : List Completion}, .load l n ∉ es.map Completion.job →
          Completion.load l n .panicked ∉ es := fun hj hmem => hj (List.mem_map_of_mem hmem)
      exact iff_of_false (hnot hj) (hnot (fun hj' => hj ((hjobs _).2 hj')))
  · intro hsame
    rw [h.loading, h'.loading]
    refine List.filter_congr fun p _ => ?_
    obtain ⟨l, n⟩ := p
    rw [Bool.not_inj_iff, Bool.eq_iff_iff, any_clearsLoading (h.ends_nodup hs),
      any_clearsLoading (h'.ends_nodup hs), hjobs, hsame]

theorem endings_of_steady (depth : Nat) {ms : List Move} (hs : s.Steady)
    (hm : ∀ m ∈ ms, m.Steady) : endings depth ms s = completions depth ms s := by
  induction ms generalizing s with
  | nil => rfl
  | cons m ms ih =>
    have hends : ended? depth s m = completed? s m := by
      unfold ended?
      cases completed? s m with
      | none => rfl
      | some x =>
        cases x with
        | load l n r => rw [Option.map_some, ending, loadEnd_of_steady depth l n r hs]
        | save l n k text r => rfl
    rw [endings, completions, hends,
      ih (hs.step (hm m List.mem_cons_self)) fun m' hm' => hm m' (List.mem_cons_of_mem _ hm')]

/-- Whichever unfinished tasks end, and whatever their workers answer, the order in which they do
makes no difference to the texts, to what is loaded and to what is being saved. It makes none to
what is being loaded just where the same loads end with a panic, of the loader or of a listener that
is told, and none to how often each listener is called where no listener panics. -/
theorem completion_order (depth : Nat) (p : ServicePlan) (past : List Move)
    (ho : (run depth past (create p).2).Obeys fun _ => False) :
    let s := run depth past (create p).2
    (∀ cs : List Completion, (cs.map Completion.job).Subperm (s.engine.tasks.map (·.job)) →
      ∃ ms, (∀ m ∈ ms, m.IsWork) ∧ completions depth ms s = cs) ∧
    (s.Steady → ∀ ms, (∀ m ∈ ms, m.IsWork) → endings depth ms s = completions depth ms s) ∧
    ∀ ms ms', (∀ m ∈ ms, m.IsWork) → (∀ m ∈ ms', m.IsWork) →
      (completions depth ms s).Perm (completions depth ms' s) →
      let t := run depth ms s
      let t' := run depth ms' s
      t.engine.store = t'.engine.store ∧
      (∀ p, p ∈ t.engine.loaded ↔ p ∈ t'.engine.loaded) ∧
      t.engine.saving = t'.engine.saving ∧
      (t.engine.loading = t'.engine.loading ↔ ∀ l n,
        Completion.load l n .panicked ∈ endings depth ms s ↔
          Completion.load l n .panicked ∈ endings depth ms' s) ∧
      (endings depth ms s = completions depth ms s →
        endings depth ms' s = completions depth ms' s → t.notified = t'.notified) := by
  intro s
  refine ⟨exists_work depth ho, fun hs ms hms => ?_, fun ms ms' hms hms' hp => ?_⟩
  · exact endings_of_steady depth hs fun m hm => (hms m hm).steady
  intro t t'
  have htracked : s.engine.Tracked := run_tracked depth past (exact_create p).toTracked
  have hworks := run_works depth hms ho
  have hworks' := run_works depth hms' ho
  -- no job has two tasks, so the completed ones are all different
  have hdistinct : ((completions depth ms s).map Completion.job).Nodup := by
    rw [← hworks.ends]
    exact hworks.ends_nodup htracked
  have htally : t.tally = t'.tally := by
    rw [hworks.tally, hworks'.tally, Tally.foldl_settle_perm hp hdistinct]
  obtain ⟨hstore, hloaded, hsaving⟩ := Tally.mk.inj htally
  refine ⟨hstore, fun p => ?_, hsaving, hworks.loading_eq_iff hworks' hp htracked, fun he he' => ?_⟩
  · rw [← List.mem_toFinset, hloaded, List.mem_toFinset]
  · have hcount : deliveriesOf (completions depth ms s) = deliveriesOf (completions depth ms' s) :=
      hp.countP_eq _
    rw [hworks.notified he, hworks'.notified he', hcount]

/-- A listener, and misses in two namespaces. -/
def listenedMoves (respond : String → Script) : List Move :=
  [.subscribe respond, .request (.phrase "one:a" {}), .request (.phrase "two:b" {})]

def oneFirst : List Move :=
  [.ask 1, .ask 3, .loadEnds 1 (.found [("a", .text "A")]), .loadEnds 2 (.found [("b", .text "B")])]

def twoFirst : List Move :=
  [.ask 3, .loadEnds 3 (.found [("b", .text "B")]), .ask 1, .loadEnds 1 (.found [("a", .text "A")])]

theorem obeys_listenedMoves {respond : String → Script} (hq : ∀ memory, (respond memory).Quiet) :
    (run 1 (listenedMoves respond) (create busyPlan).2).Obeys fun _ => False := by
  have hregistry : (run 1 (listenedMoves respond) (create busyPlan).2).registry = [] := by rfl
  have hlisteners : (run 1 (listenedMoves respond) (create busyPlan).2).engine.listeners =
      [⟨0, respond⟩] := by rfl
  unfold Obeys
  rw [hregistry, hlisteners]
  refine ⟨by simp, fun l hl => ?_⟩
  rw [List.mem_singleton.1 hl]
  exact hq

def attentive : String → Script :=
  fun _ => .note .null (.finish .nothing)

theorem completion_order_listened :
    let s := run 1 (listenedMoves attentive) (create busyPlan).2
    s.Obeys (fun _ => False) ∧ s.Steady ∧
      (run 1 oneFirst s).engine.store = (run 1 twoFirst s).engine.store ∧
      (run 1 oneFirst s).engine.loading = (run 1 twoFirst s).engine.loading ∧
      (run 1 oneFirst s).notified = (run 1 twoFirst s).notified ∧
      (run 1 twoFirst s).notified = [0, 0] := by
  intro s
  have ho : s.Obeys fun _ => False := obeys_listenedMoves fun _ => trivial
  have hs : s.Steady := run_steady 1 (by simp [listenedMoves, Move.Steady, attentive, Script.Returns,
    Script.Ends]) (steady_create busyPlan)
  have hone : ∀ m ∈ oneFirst, m.IsWork := by simp [oneFirst, Move.IsWork]
  have htwo : ∀ m ∈ twoFirst, m.IsWork := by simp [twoFirst, Move.IsWork]
  have hperm : (completions 1 oneFirst s).Perm (completions 1 twoFirst s) :=
    List.Perm.swap (Completion.load "en" "two" (.found [("b", .text "B")]))
      (Completion.load "en" "one" (.found [("a", .text "A")])) []
  obtain ⟨-, hends, horder⟩ := completion_order 1 busyPlan (listenedMoves attentive) ho
  obtain ⟨hstore, -, -, hloading, hnotified⟩ := horder oneFirst twoFirst hone htwo hperm
  refine ⟨ho, hs, hstore, hloading.2 fun l n => ?_, hnotified (hends hs _ hone) (hends hs _ htwo),
    by decide +kernel⟩
  rw [hends hs _ hone, hends hs _ htwo]
  exact hperm.mem_iff

/-- A listener that panics the first time it is told of something. -/
def startled (memory : String) : Script :=
  if memory = "" then .remember "told" (.finish .panicked) else .finish .nothing

/-- The load that ends first leaves its mark. -/
theorem completion_order_startled :
    let s := run 1 (listenedMoves startled) (create busyPlan).2
    s.Obeys (fun _ => False) ∧
      (completions 1 oneFirst s).Perm (completions 1 twoFirst s) ∧
      (run 1 oneFirst s).engine.loading = [("en", "one")] ∧
      (run 1 twoFirst s).engine.loading = [("en", "two")] := by
  refine ⟨obeys_listenedMoves fun memory => ?_, ?_, by decide +kernel, by decide +kernel⟩
  · unfold startled
    split <;> exact trivial
  · exact List.Perm.swap (Completion.load "en" "two" (.found [("b", .text "B")]))
      (Completion.load "en" "one" (.found [("a", .text "A")])) []

end Service

end Phrasebook
