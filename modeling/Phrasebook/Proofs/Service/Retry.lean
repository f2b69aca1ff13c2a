import Phrasebook.Proofs.Service.Completion
import Phrasebook.Proofs.Service.Repetition
import Phrasebook.Proofs.Service.Supply

/-!
# Trying again

Work that is under way has a mark, and while the mark is there no other work is started for the
same. `Engine.Clear` says that a mark is there for no other reason, and `Engine.Stuck` that it is
there although nothing is under way. The first holds until a task for that very work ends with a
panic, and the second from then on, so `retried` can say which keys that are missed later start what
they need.
-/

namespace Phrasebook

/-- What a job is for, whatever the text. -/
inductive Mark where
  | load (locale space : String)
  | save (locale space name : String)
  deriving DecidableEq, Repr

def Job.mark : Job → Mark
  | .load locale space => .load locale space
  | .save locale space name _ => .save locale space name

def Completion.Panicked : Completion → Prop
  | .load _ _ .panicked => True
  | .save _ _ _ _ .panicked => True
  | _ => False

/-- The mark is the one for the key of the context, or for its namespace. -/
def Context.Seeks (c : Context) : Mark → Prop
  | .load locale space => c.locale = locale ∧ c.space.getD "" = space
  | .save locale space name => c.locale = locale ∧ c.space.getD "" = space ∧ c.name.getD "" = name

namespace Engine

def Marked (e : Engine) : Mark → Prop
  | .load l n => (l, n) ∈ e.loading
  | .save l n k => (l, n, k) ∈ e.saving

def UnderWay (e : Engine) (k : Mark) : Prop :=
  ∃ t ∈ e.tasks, t.job.mark = k

/-- Unless there is a mark, the work is started when a key is missed. -/
def Wants (e : Engine) : Mark → Prop
  | .load l n => e.hasLoader = true ∧ (l, n) ∉ e.loaded ∧ e.background = true
  | .save _ _ _ => e.settings.saveMissing = true ∧ e.hasSaver = true ∧ e.background = true

instance (e : Engine) (k : Mark) : Decidable (e.Marked k) :=
  match k with
  | .load l n => inferInstanceAs (Decidable ((l, n) ∈ e.loading))
  | .save l n k => inferInstanceAs (Decidable ((l, n, k) ∈ e.saving))

instance (e : Engine) (k : Mark) : Decidable (e.UnderWay k) :=
  inferInstanceAs (Decidable (∃ t ∈ e.tasks, t.job.mark = k))

/-- Unfinished tasks have their marks, and this mark has a task. -/
structure Clear (k : Mark) (e : Engine) : Prop where
  tracked : e.Tracked
  underWay : e.Marked k → e.UnderWay k

/-- This mark has no task, and nothing takes it away. -/
structure Stuck (k : Mark) (e : Engine) : Prop where
  tracked : e.Tracked
  marked : e.Marked k
  idle : ¬ e.UnderWay k

def complete (e : Engine) : Completion → Engine
  | .load l n r => e.endLoad l n r
  | .save l n k text r => e.endSave l n k text r

variable {e e' : Engine} {new : List Task} {k : Mark} {x : Completion}

theorem underWay_iff : e.UnderWay k ↔ k ∈ (e.tasks.map (·.job)).map Job.mark := by
  simp [UnderWay]

theorem mem_loadsOf_iff_mark {ts : List Task} {l n : String} :
    (l, n) ∈ loadsOf ts ↔ ∃ t ∈ ts, t.job.mark = .load l n := by
  rw [mem_loadsOf]
  refine exists_congr fun t => and_congr_right fun _ => ?_
  cases t.job <;> simp [Job.mark]

theorem mem_savesOf_iff_mark {ts : List Task} {l n k : String} :
    (l, n, k) ∈ savesOf ts ↔ ∃ t ∈ ts, t.job.mark = .save l n k := by
  rw [mem_savesOf]
  refine exists_congr fun t => and_congr_right fun _ => ?_
  cases t.job <;> simp [Job.mark]

theorem Tracked.marked (h : e.Tracked) (hk : e.UnderWay k) : e.Marked k := by
  cases k with
  | load l n => exact h.loads _ (mem_loadsOf_iff_mark.2 hk)
  | save l n k => exact h.saves _ (mem_savesOf_iff_mark.2 hk)

theorem Clear.marked_iff (h : e.Clear k) : e.Marked k ↔ e.UnderWay k :=
  ⟨h.underWay, h.tracked.marked⟩

/-! ### How marks come and go -/

theorem Starts.underWay (hs : e.Starts new e') :
    e'.UnderWay k ↔ e.UnderWay k ∨ ∃ t ∈ new, t.job.mark = k := by
  unfold UnderWay
  rw [hs.tasks]
  simp only [List.mem_append, or_and_right, exists_or]

theorem Starts.marked (hs : e.Starts new e') :
    e'.Marked k ↔ e.Marked k ∨ ∃ t ∈ new, t.job.mark = k := by
  cases k with
  | load l n =>
    show (l, n) ∈ e'.loading ↔ _
    rw [hs.loading, List.mem_append, mem_loadsOf_iff_mark]
    exact .rfl
  | save l n k =>
    show (l, n, k) ∈ e'.saving ↔ _
    rw [hs.saving, List.mem_append, mem_savesOf_iff_mark]
    exact .rfl

/-- Where there is a mark, nothing is started for the same. -/
theorem Starts.unmarked (hs : e.Starts new e') (hk : ∃ t ∈ new, t.job.mark = k) :
    ¬ e.Marked k := by
  cases k with
  | load l n => exact (hs.loads _ (mem_loadsOf_iff_mark.2 hk)).2
  | save l n k => exact hs.saves _ (mem_savesOf_iff_mark.2 hk)

theorem Clear.starts (h : e.Clear k) (hs : e.Starts new e') : e'.Clear k where
  tracked := h.tracked.starts hs
  underWay := by
    intro hk
    rw [hs.marked] at hk
    rw [hs.underWay]
    exact hk.imp_left h.underWay

theorem Stuck.starts (h : e.Stuck k) (hs : e.Starts new e') : e'.Stuck k where
  tracked := h.tracked.starts hs
  marked := hs.marked.2 (.inl h.marked)
  idle := by
    rw [hs.underWay]
    exact fun hk => hk.elim h.idle fun hnew => hs.unmarked hnew h.marked

theorem complete_marked (e : Engine) (x : Completion) :
    (e.complete x).Marked k ↔ e.Marked k ∧ (x.job.mark = k → x.Panicked) := by
  cases x with
  | load l n r =>
    cases k with
    | load l' n' =>
      cases r <;>
        simp [complete, endLoad, dropTask, Marked, Completion.job, Job.mark, Completion.Panicked,
          @eq_comm _ l' l, @eq_comm _ n' n]
    | save l' n' name' =>
      cases r <;> simp [complete, endLoad, dropTask, Marked, Completion.job, Job.mark]
  | save l n name text r =>
    cases k with
    | load l' n' =>
      cases r <;> simp [complete, endSave, dropTask, Marked, Completion.job, Job.mark]
    | save l' n' name' =>
      cases r <;>
        simp [complete, endSave, dropTask, Marked, Completion.job, Job.mark, Completion.Panicked,
          @eq_comm _ l' l, @eq_comm _ n' n, @eq_comm _ name' name]

theorem complete_tasks (e : Engine) (x : Completion) :
    (e.complete x).tasks = e.tasks.eraseP (·.job = x.job) := by
  cases x with
  | load l n r => exact endLoad_tasks e l n r
  | save l n k text r => exact endSave_tasks e l n k text r

/-- No other task is there for the same. -/
theorem complete_idle (h : e.Tracked) (ht : ∃ t ∈ e.tasks, t.job = x.job) :
    ¬ (e.complete x).UnderWay x.job.mark := by
  cases x with
  | load l n r =>
    refine fun hk => (h.loads_nodup.mem_erase_iff (a := (l, n)) (b := (l, n))).1 ?_ |>.1 rfl
    rw [← loadsOf_dropLoad, ← endLoad_tasks e l n r]
    exact mem_loadsOf_iff_mark.2 hk
  | save l n k text r =>
    refine fun hk => (h.saves_nodup.mem_erase_iff (a := (l, n, k)) (b := (l, n, k))).1 ?_ |>.1 rfl
    rw [← savesOf_dropSave h.saves_nodup ht, ← endSave_tasks e l n k text r]
    exact mem_savesOf_iff_mark.2 hk

theorem complete_stuck (ht : (e.complete x).Tracked) (hk : e.Marked k)
    (hidle : ¬ (e.complete x).UnderWay k) (hx : x.job.mark = k → x.Panicked) :
    (e.complete x).Stuck k :=
  ⟨ht, (complete_marked e x).2 ⟨hk, hx⟩, hidle⟩

/-- Completed work leaves the mark clear unless it panicked. -/
theorem Clear.complete (h : e.Clear k) (ht : (e.complete x).Tracked)
    (hx : x.job.mark = k → ¬ x.Panicked) : (e.complete x).Clear k where
  tracked := ht
  underWay := by
    intro hk
    obtain ⟨hmarked, hpanicked⟩ := (complete_marked e x).1 hk
    have hother : x.job.mark ≠ k := fun hmark => hx hmark (hpanicked hmark)
    obtain ⟨t, hmem, hmark⟩ := h.underWay hmarked
    have hjob : t.job ≠ x.job := by
      intro hjob
      rw [hjob] at hmark
      exact hother hmark
    refine ⟨t, ?_, hmark⟩
    rw [complete_tasks, List.mem_eraseP_of_neg (by simpa using hjob)]
    exact hmem

/-- A missed key starts what is wanted for it, unless it is under way. -/
theorem Clear.recordMissing (h : e.Clear k) (hw : e.Wants k) {c : Context} (hc : c.Seeks k)
    (hname : c.name.getD "" ≠ "") (text : String) :
    (e.recordMissing c.locale (c.space.getD "") (c.name.getD "") text).UnderWay k := by
  obtain ⟨new, hs⟩ := recordMissing_starts e c.locale (c.space.getD "") (c.name.getD "") text
  by_cases hk : e.Marked k
  · exact hs.underWay.2 (.inl (h.underWay hk))
  unfold UnderWay
  rw [recordMissing_eq _ _ _ _ hname]
  cases k with
  | load l n =>
    obtain ⟨rfl, rfl⟩ := hc
    obtain ⟨hloader, hloaded, hbackground⟩ := hw
    have hwould : e.WouldLoad c.locale (c.space.getD "") := ⟨hloader, hloaded, hk, hbackground⟩
    refine ⟨{ job := .load c.locale (c.space.getD "") }, List.mem_append_right _ ?_, rfl⟩
    rw [if_pos hwould]
    exact List.mem_cons_self
  | save l n k =>
    obtain ⟨rfl, rfl, rfl⟩ := hc
    obtain ⟨hmissing, hsaver, hbackground⟩ := hw
    have hwould : e.WouldSave c.locale (c.space.getD "") (c.name.getD "") :=
      ⟨hmissing, hsaver, hk, hbackground⟩
    refine ⟨{ job := .save c.locale (c.space.getD "") (c.name.getD "") text },
      List.mem_append_left _ (List.mem_append_right _ ?_), rfl⟩
    rw [if_pos hwould]
    exact List.mem_cons_self

end Engine

namespace Service

variable {depth : Nat} {s t u : Service} {m : Move} {k : Mark} {c : Context} {key : String}
  {args : Arguments}

/-- Before a task ends, nothing but new tasks can have come. -/
theorem step_ended (depth : Nat) {x : Completion} (hx : ended? depth s m = some x) :
    ∃ new e, s.engine.Starts new e ∧ (∃ t ∈ s.engine.tasks, t.job = x.job) ∧
      (step depth s m).engine = e.complete x := by
  obtain ⟨y, hy, rfl⟩ := Option.map_eq_some_iff.1 hx
  cases m with
  | loadEnds index r =>
    rw [completed?] at hy
    split at hy
    · rename_i l n hj
      obtain rfl := Option.some.inj hy
      obtain ⟨new, e, -, hs, -, -, he⟩ := finishLoad_starts depth l n r s
      rw [step, hj]
      exact ⟨new, e, hs, Engine.mem_tasks_of_askedJob? hj, he⟩
    · simp at hy
  | saveEnds index r =>
    rw [completed?] at hy
    split at hy
    · rename_i l n name text hj
      obtain rfl := Option.some.inj hy
      rw [step, hj]
      dsimp only
      rw [finishSave_eq]
      exact ⟨[], s.engine, .refl _, Engine.mem_tasks_of_askedJob? hj, rfl⟩
    · simp at hy
  | request => simp [completed?] at hy
  | subscribe => simp [completed?] at hy
  | unsubscribe => simp [completed?] at hy
  | background => simp [completed?] at hy
  | ask => simp [completed?] at hy

/-- Otherwise a mark comes with a task, and only where there was none. -/
theorem step_unended (depth : Nat) (hx : ended? depth s m = none) (k : Mark) :
    ((step depth s m).engine.Marked k ↔ s.engine.Marked k) ∧
        ((step depth s m).engine.UnderWay k ↔ s.engine.UnderWay k) ∨
      ¬ s.engine.Marked k ∧ (step depth s m).engine.UnderWay k := by
  have hadvance := step_advance depth s m
  rw [ended?, Option.map_eq_none_iff] at hx
  generalize step depth s m = t at hadvance ⊢
  cases hadvance with
  | @starts m t new ha hs =>
    have hmarked : t.engine.Marked k ↔ _ := hs.marked (k := k)
    have hway : t.engine.UnderWay k ↔ _ := hs.underWay (k := k)
    by_cases hnew : ∃ t ∈ new, t.job.mark = k
    · exact .inr ⟨hs.unmarked hnew, hway.2 (.inr hnew)⟩
    · rw [hmarked, hway]
      exact .inl ⟨or_iff_left hnew, or_iff_left hnew⟩
  | @asked index job hj =>
    have hjobs : (ask index job s).engine.tasks.map (·.job) = s.engine.tasks.map (·.job) :=
      map_job_setState index .waiting s.engine.tasks
    refine .inl ⟨?_, ?_⟩
    · cases k <;> exact .rfl
    · rw [Engine.underWay_iff, Engine.underWay_iff, hjobs]
  | loadEnded hj => simp [completed?, hj] at hx
  | saveEnded hj => simp [completed?, hj] at hx

theorem step_clear (depth : Nat)
    (hm : ∀ x, ended? depth s m = some x → x.job.mark = k → ¬ x.Panicked)
    (hs : s.engine.Clear k) : (step depth s m).engine.Clear k := by
  have ht := (step_advance depth s m).tracked hs.tracked
  cases hx : ended? depth s m with
  | some x =>
    obtain ⟨new, e, hstarts, -, he⟩ := step_ended depth hx
    rw [he] at ht ⊢
    exact (hs.starts hstarts).complete ht (hm x hx)
  | none =>
    refine ⟨ht, fun hk => ?_⟩
    rcases step_unended depth hx k with ⟨hmarked, hway⟩ | ⟨-, hway⟩
    · exact hway.2 (hs.underWay (hmarked.1 hk))
    · exact hway

theorem step_stuck (depth : Nat) (m : Move) (hs : s.engine.Stuck k) :
    (step depth s m).engine.Stuck k := by
  have ht := (step_advance depth s m).tracked hs.tracked
  cases hx : ended? depth s m with
  | some x =>
    obtain ⟨new, e, hstarts, ⟨t, hmem, hjob⟩, he⟩ := step_ended depth hx
    have hother : x.job.mark ≠ k := by
      rintro rfl
      exact hs.idle ⟨t, hmem, congrArg Job.mark hjob⟩
    have hstuck := hs.starts hstarts
    rw [he] at ht ⊢
    refine Engine.complete_stuck ht hstuck.marked (fun hk => hstuck.idle ?_) fun h => absurd h hother
    obtain ⟨t, hmem, hmark⟩ := hk
    rw [Engine.complete_tasks] at hmem
    exact ⟨t, List.mem_of_mem_eraseP hmem, hmark⟩
  | none =>
    rcases step_unended depth hx k with ⟨hmarked, hway⟩ | ⟨hnot, -⟩
    · exact ⟨ht, hmarked.2 hs.marked, fun hk => hs.idle (hway.1 hk)⟩
    · exact absurd hs.marked hnot

/-- A task that ends is gone, and its mark is left only after a panic. -/
theorem marked_of_ended (depth : Nat) {x : Completion} (hs : s.engine.Tracked)
    (hx : ended? depth s m = some x) :
    ¬ (step depth s m).engine.UnderWay x.job.mark ∧
      ((step depth s m).engine.Marked x.job.mark ↔ x.Panicked) := by
  obtain ⟨new, e, hstarts, ⟨t, hmem, hjob⟩, he⟩ := step_ended depth hx
  have hmem' : t ∈ e.tasks := by
    rw [hstarts.tasks]
    exact List.mem_append_left _ hmem
  have htracked := hs.starts hstarts
  have hmarked : e.Marked x.job.mark := htracked.marked ⟨t, hmem', congrArg Job.mark hjob⟩
  rw [he]
  refine ⟨Engine.complete_idle htracked ⟨t, hmem', hjob⟩, ?_⟩
  rw [Engine.complete_marked]
  exact ⟨fun h => h.2 rfl, fun hp => ⟨hmarked, fun _ => hp⟩⟩

theorem run_clear (depth : Nat) (ms : List Move)
    (hm : ∀ x ∈ endings depth ms s, x.job.mark = k → ¬ x.Panicked) (hs : s.engine.Clear k) :
    (run depth ms s).engine.Clear k := by
  induction ms generalizing s with
  | nil => exact hs
  | cons m ms ih =>
    have hstep := step_clear depth (m := m) (fun x hx => hm x ?_) hs
    · exact ih (fun x hx => hm x (List.mem_append_right _ hx)) hstep
    · rw [endings, hx]
      exact List.mem_append_left _ List.mem_cons_self

theorem run_stuck (depth : Nat) (ms : List Move) (hs : s.engine.Stuck k) :
    (run depth ms s).engine.Stuck k :=
  run_induction (fun s => s.engine.Stuck k) (fun _ m (_ : True) h => step_stuck depth m h)
    (fun _ _ => trivial) hs

/-- After a panic the mark is stuck. -/
theorem run_panicked (depth : Nat) (ms : List Move) (hs : s.engine.Tracked)
    (hm : ∃ x ∈ endings depth ms s, x.job.mark = k ∧ x.Panicked) :
    (run depth ms s).engine.Stuck k := by
  induction ms generalizing s with
  | nil =>
    obtain ⟨x, hx, -⟩ := hm
    simp [endings] at hx
  | cons m ms ih =>
    obtain ⟨x, hx, hmark, hp⟩ := hm
    have ht := (step_advance depth s m).tracked hs
    rw [endings, List.mem_append, Option.mem_toList] at hx
    rcases hx with hx | hx
    · obtain ⟨hidle, hmarked⟩ := marked_of_ended depth hs hx
      rw [hmark] at hidle hmarked
      exact run_stuck depth ms ⟨ht, hmarked.2 hp, hidle⟩
    · exact ih ht ⟨x, hx, hmark, hp⟩

theorem clear_create (p : ServicePlan) (k : Mark) : (create p).2.engine.Clear k := by
  have hexact := exact_create p
  refine ⟨hexact.toTracked, fun hk => ?_⟩
  cases k with
  | load l n => exact Engine.mem_loadsOf_iff_mark.1 (hexact.loading _ hk)
  | save l n name => exact Engine.mem_savesOf_iff_mark.1 (hexact.saving _ hk)

theorem reported?_state {answer : Handler Engine} (h : reported? answer key args s = some (c, u)) :
    u = (s.dispatch answer .before (contextFor s.engine key args)).2 := by
  unfold reported? at h
  dsimp only at h
  split at h
  · simp at h
  · exact (Prod.mk.inj (Option.some.inj h)).2.symm

/-- A key that is missed while the mark is clear starts what is wanted for it. -/
theorem underWay_missed (hs : s.engine.Clear k)
    (h : reported? (answer depth) key args s = some (c, u)) (hname : c.name.getD "" ≠ "")
    (hc : c.Seeks k) (hw : (u.dispatch (answer depth) .missing c).2.engine.Wants k) :
    (phrase (answer depth) key args s).2.engine.UnderWay k := by
  have hsafe := conduct_grows.answer_safe (Q := fun _ => True) depth
  have hbefore := conduct_grows.dispatch hsafe .before (contextFor s.engine key args) s
  rw [← reported?_state h] at hbefore
  have htold := conduct_grows.leads_trans hbefore (conduct_grows.dispatch hsafe .missing c u)
  obtain ⟨⟨-, new, hstarts⟩, -⟩ := htold (obeys_true s)
  have hrecorded := (hs.starts hstarts).recordMissing hw hc hname (args.text?.getD (c.name.getD ""))
  rw [phrase_of_reported h]
  obtain ⟨⟨-, more, hfinish⟩, -⟩ := conduct_grows.finish hsafe c (args.text?.getD key)
    (miss (answer depth) c (c.space.getD "") (c.name.getD "") (args.text?.getD (c.name.getD "")) u)
    (obeys_true _)
  exact hfinish.underWay.2 (.inl hrecorded)

/-- Work that ends takes its mark with it, unless it ends with a panic, of its worker or of a listener
that is told of what was found. As long as none has panicked over it, a mark is there only while the
work is under way, and a key that is missed, whose name is not empty, starts the work that is wanted
for it or finds it under way. After a panic the mark is there for ever, and nothing is ever under
way for it again. -/
theorem retried (depth : Nat) (p : ServicePlan) (ms : List Move) (k : Mark) :
    let s := run depth ms (create p).2
    (∀ m x, ended? depth s m = some x →
      ¬ (step depth s m).engine.UnderWay x.job.mark ∧
        ((step depth s m).engine.Marked x.job.mark ↔ x.Panicked)) ∧
    ((∀ x ∈ endings depth ms (create p).2, x.job.mark = k → ¬ x.Panicked) →
      (s.engine.Marked k ↔ s.engine.UnderWay k) ∧
      ∀ key args c u, reported? (answer depth) key args s = some (c, u) → c.name.getD "" ≠ "" →
        c.Seeks k → (u.dispatch (answer depth) .missing c).2.engine.Wants k →
        ∃ t ∈ (step depth s (.request (.phrase key args))).engine.tasks, t.job.mark = k ∧
          (t ∈ s.engine.tasks ∨ t.state = .ready)) ∧
    ((∃ x ∈ endings depth ms (create p).2, x.job.mark = k ∧ x.Panicked) →
      ∀ ms', (run depth ms' s).engine.Marked k ∧ ¬ (run depth ms' s).engine.UnderWay k) := by
  intro s
  have hcreated : (create p).2.engine.Tracked := (exact_create p).toTracked
  have htracked : s.engine.Tracked := run_tracked depth ms hcreated
  refine ⟨fun m x hx => marked_of_ended depth htracked hx, fun hm => ?_, fun hm ms' => ?_⟩
  · have hclear : s.engine.Clear k := run_clear depth ms hm (clear_create p k)
    refine ⟨hclear.marked_iff, fun key args c u h hname hc hw => ?_⟩
    obtain ⟨t, ht, hmark⟩ := underWay_missed hclear h hname hc hw
    refine ⟨t, ht, hmark, ?_⟩
    obtain ⟨-, new, hs⟩ := grows_request depth s (.phrase key args)
    have htasks : t ∈ (step depth s (.request (.phrase key args))).engine.tasks := ht
    rw [hs.tasks] at htasks
    exact (List.mem_append.1 htasks).imp_right (hs.ready t)
  · have hstuck := run_stuck depth ms' (run_panicked depth ms hcreated hm)
    exact ⟨hstuck.marked, hstuck.idle⟩

/-- A phrase book whose keys are in one namespace. -/
def plainPlan : ServicePlan where
  settings := { locale := "en", defaultSpace := some "ns" }
  hasLoader := true

def endedMoves (r : LoadResult) : List Move :=
  [.request (.phrase "a" {}), .ask 0, .loadEnds 0 r]

theorem retried_failed :
    ∃ t ∈ (step 1 (run 1 (endedMoves .failed) (create plainPlan).2)
        (.request (.phrase "b" {}))).engine.tasks,
      t.job.mark = .load "en" "ns" ∧
        (t ∈ (run 1 (endedMoves .failed) (create plainPlan).2).engine.tasks ∨ t.state = .ready) := by
  have hm : ∀ x ∈ endings 1 (endedMoves .failed) (create plainPlan).2,
      x.job.mark = .load "en" "ns" → ¬ x.Panicked := by
    have hendings : endings 1 (endedMoves .failed) (create plainPlan).2 =
        [.load "en" "ns" .failed] := by rfl
    rw [hendings]
    simp [Completion.Panicked]
  obtain ⟨c, u, h, hname, hc, hw⟩ :
      ∃ c u, reported? (Service.answer 1) "b" {} (run 1 (endedMoves .failed) (create plainPlan).2) =
          some (c, u) ∧ c.name.getD "" ≠ "" ∧ c.Seeks (.load "en" "ns") ∧
        (u.dispatch (Service.answer 1) .missing c).2.engine.Wants (.load "en" "ns") :=
    ⟨_, _, rfl, by decide +kernel, ⟨rfl, rfl⟩, ⟨rfl, by decide +kernel, rfl⟩⟩
  exact ((retried 1 plainPlan (endedMoves .failed) (.load "en" "ns")).2.1 hm).2 "b" {} c u h hname
    hc hw

/-- An empty name starts nothing though the load before has ended. After a panic the mark is there with
nothing under way, whether it was the loader that panicked or a listener, and after one of the
loader a later key starts nothing though its namespace is not loaded. -/
theorem not_retried :
    let s := run 1 (endedMoves .failed) (create plainPlan).2
    let loader := run 1 (endedMoves .panicked) (create plainPlan).2
    let listener := run 1 (.subscribe (.finish .panicked) :: endedMoves (.found []))
      (create plainPlan).2
    (∃ c u, reported? (Service.answer 1) ":" {} s = some (c, u) ∧ c.Seeks (.load "en" "ns") ∧
      (u.dispatch (Service.answer 1) .missing c).2.engine.Wants (.load "en" "ns")) ∧
    ¬ s.engine.Marked (.load "en" "ns") ∧
    ¬ (step 1 s (.request (.phrase ":" {}))).engine.UnderWay (.load "en" "ns") ∧
    (∃ c u, reported? (Service.answer 1) "b" {} loader = some (c, u) ∧ c.Seeks (.load "en" "ns") ∧
      (u.dispatch (Service.answer 1) .missing c).2.engine.Wants (.load "en" "ns")) ∧
    loader.engine.Marked (.load "en" "ns") ∧ ¬ loader.engine.UnderWay (.load "en" "ns") ∧
    ¬ (step 1 loader (.request (.phrase "b" {}))).engine.UnderWay (.load "en" "ns") ∧
    listener.engine.Marked (.load "en" "ns") ∧ ¬ listener.engine.UnderWay (.load "en" "ns") := by
  refine ⟨⟨_, _, rfl, ⟨rfl, rfl⟩, ⟨rfl, by decide +kernel, rfl⟩⟩, ?_, ?_,
    ⟨_, _, rfl, ⟨rfl, rfl⟩, ⟨rfl, by decide +kernel, rfl⟩⟩, ?_, ?_, ?_, ?_, ?_⟩
  all_goals decide +kernel

end Service

end Phrasebook
