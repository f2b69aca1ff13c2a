import Phrasebook.Proofs.Plugin.Frame
import Phrasebook.Service.Background

/-!
# Runs of a phrase book

A run is a list of moves: requests of the host, and background work that goes on in any order. A
worker is asked to do the job of a task some time after the task was started, and answers some time
after that. `run_induction` is the way to prove what every run preserves.
-/

namespace Phrasebook

/-- One move of a run: the host asks for something, a listener comes or goes, the background
appears or disappears, a worker is asked to do the job of the task at an index, or it answers. -/
inductive Move where
  | request (r : Request)
  | subscribe (respond : String → Script)
  | unsubscribe (ticket : Nat)
  | background (available : Bool)
  | ask (index : Nat)
  | loadEnds (index : Nat) (r : LoadResult)
  | saveEnds (index : Nat) (r : SaveResult)

/-- Whoever begins to listen does not panic. -/
def Move.Steady : Move → Prop
  | .subscribe respond => ∀ memory, (respond memory).Returns
  | _ => True

/-- No worker panics, and whoever begins to listen does not either. -/
def Move.Orderly : Move → Prop
  | .loadEnds _ .panicked => False
  | .saveEnds _ .panicked => False
  | .subscribe respond => ∀ memory, (respond memory).Returns
  | _ => True

theorem Move.Orderly.steady {m : Move} (hm : m.Orderly) : m.Steady := by
  cases m with
  | subscribe respond => exact hm
  | _ => trivial

/-- Whatever the move asks for is allowed. -/
def Move.Keeps (Q : Request → Prop) : Move → Prop
  | .request r => Q r ∧ r.Keeps Q
  | .subscribe respond => ∀ memory, (respond memory).Keeps Q
  | _ => True

namespace Engine

/-- The job of the task at an index whose worker was not asked yet. -/
def readyJob? (e : Engine) (index : Nat) : Option Job :=
  e.tasks[index]?.bind fun t => if t.state = .ready then some t.job else none

/-- The job of the task at an index whose worker was asked. -/
def askedJob? (e : Engine) (index : Nat) : Option Job :=
  e.tasks[index]?.bind fun t => if t.state = .ready then none else some t.job

/-- The engine after the task of a load has ended: it is gone and, unless it panicked, the marker is
too. -/
def endLoad (e : Engine) (locale space : String) (r : LoadResult) :
    Engine :=
  match r with
  | .panicked => e.dropTask (.load locale space)
  | _ => { e with loading := e.loading.filter (· != (locale, space)) }.dropTask (.load locale space)

/-- The engine after a save has ended. -/
def endSave (e : Engine) (l n k text : String) (r : SaveResult) : Engine :=
  match r with
  | .panicked => e.dropTask (.save l n k text)
  | _ => { e with saving := e.saving.filter (· != (l, n, k)) }.dropTask (.save l n k text)

theorem endLoad_listeners (e : Engine) (l n : String) (r : LoadResult) :
    (e.endLoad l n r).listeners = e.listeners := by
  cases r <;> rfl

theorem endSave_listeners (e : Engine) (l n k text : String) (r : SaveResult) :
    (e.endSave l n k text r).listeners = e.listeners := by
  cases r <;> rfl

end Engine

namespace Service

/-- Asks the worker of a task. -/
def ask (index : Nat) (job : Job) (s : Service) : Service :=
  mapEngine (s.log job.event) fun e => { e with tasks := Desk.setState index .waiting e.tasks }

/-- The phrase book after a move. Requests inside of requests are answered up to `depth` deep. A
move about a task that is not there, or not at that point, does nothing. -/
def step (depth : Nat) (s : Service) : Move → Service
  | .request r => (answer (depth + 1) r s).2
  | .subscribe respond => (subscribe respond s).2
  | .unsubscribe ticket => unsubscribe ticket s
  | .background available => mapEngine s fun e => { e with background := available }
  | .ask index =>
    match s.engine.readyJob? index with
    | some job => ask index job s
    | none => s
  | .loadEnds index r =>
    match s.engine.askedJob? index with
    | some (.load locale space) => finishLoad (answer depth) locale space r s
    | _ => s
  | .saveEnds index r =>
    match s.engine.askedJob? index with
    | some (.save locale space name text) => finishSave locale space name text r s
    | _ => s

/-- The phrase book after some moves. -/
def run (depth : Nat) (moves : List Move) (s : Service) : Service :=
  moves.foldl (step depth) s

variable {depth : Nat} {s : Service}

@[simp] theorem run_cons (m : Move) (ms : List Move) :
    run depth (m :: ms) s = run depth ms (step depth s m) := rfl

theorem run_append (ms ms' : List Move) :
    run depth (ms ++ ms') s = run depth ms' (run depth ms s) :=
  List.foldl_append

/-- What holds at first and is preserved by each of the moves holds at the end. -/
theorem run_induction (P : Service → Prop) {ok : Move → Prop}
    (hstep : ∀ s m, ok m → P s → P (step depth s m)) {ms : List Move} (hm : ∀ m ∈ ms, ok m)
    (h : P s) : P (run depth ms s) := by
  induction ms generalizing s with
  | nil => exact h
  | cons m ms ih =>
    exact ih (fun m' hm' => hm m' (List.mem_cons_of_mem _ hm'))
      (hstep s m (hm m List.mem_cons_self) h)

/-- What does not hold at first and holds at the end begins to hold with one of the moves. -/
theorem exists_move {P : Service → Prop} {ms : List Move} (h : ¬ P s) (h' : P (run depth ms s)) :
    ∃ a m b, ms = a ++ m :: b ∧ ¬ P (run depth a s) ∧ P (step depth (run depth a s) m) := by
  induction ms generalizing s with
  | nil => exact absurd h' h
  | cons m ms ih =>
    by_cases hp : P (step depth s m)
    · exact ⟨[], m, ms, rfl, h, hp⟩
    · obtain ⟨a, m', b, rfl, ha, hb⟩ := ih hp h'
      exact ⟨m :: a, m', b, rfl, ha, hb⟩

/-! ### How a task ends -/

/-- Tells listeners about a catalog and, unless one of them panics, plugins. -/
def tell (answer : Handler Engine) (locale space : String) (c : Catalog) (s : Service) : Service :=
  match notify answer s with
  | (.panicked, t) => t
  | (.returned, t) =>
    (t.dispatch answer (.load locale space c) { locale, space := some space }).2

/-- How the task of a load ends whose loader answers so: a panic of a listener is one of the task. -/
def loadEnd (answer : Handler Engine) (locale space : String) (s : Service) :
    LoadResult → LoadResult
  | .found c =>
    match (announceCatalog answer locale space c s).1 with
    | .panicked => .panicked
    | .returned => .found c
  | r => r

theorem tell_cases (answer : Handler Engine) (l n : String) (c : Catalog) (s : Service) :
    (notify answer s).1 = .panicked ∧ tell answer l n c s = (notify answer s).2 ∨
      (notify answer s).1 = .returned ∧ tell answer l n c s =
        ((notify answer s).2.dispatch answer (.load l n c) { locale := l, space := some n }).2 := by
  unfold tell
  generalize notify answer s = told
  obtain ⟨ending, t⟩ := told
  cases ending with
  | panicked => exact .inl ⟨rfl, rfl⟩
  | returned => exact .inr ⟨rfl, rfl⟩

theorem Conduct.tell {Q : Request → Prop} {R : Service → Service → Prop} (hc : Conduct Q R)
    {answer : Handler Engine} (ha : Safe Q R answer) (locale space : String) (c : Catalog)
    (s : Service) : Leads Q R s (tell answer locale space c s) := by
  have hnotify := hc.notify ha s
  rcases tell_cases answer locale space c s with ⟨-, he⟩ | ⟨-, he⟩
  · rw [he]
    exact hnotify
  · rw [he]
    exact hc.leads_trans hnotify (hc.dispatch ha _ _ _)

theorem finishLoad_found (answer : Handler Engine) (l n : String) (c : Catalog) (s : Service) :
    finishLoad answer l n (.found c) s =
      mapEngine (tell answer l n c (mapEngine s (·.install l n c)))
        (·.endLoad l n (loadEnd answer l n s (.found c))) := by
  unfold finishLoad loadEnd tell announceCatalog
  dsimp only
  generalize notify answer (mapEngine s (·.install l n c)) = told
  obtain ⟨ending, t⟩ := told
  cases ending <;> rfl

theorem loadEnd_of_not_found (answer : Handler Engine) (l n : String) {r : LoadResult}
    (h : ∀ c, r ≠ .found c) (s : Service) : loadEnd answer l n s r = r := by
  cases r with
  | found c => exact absurd rfl (h c)
  | absent => rfl
  | failed => rfl
  | panicked => rfl

/-- A load ends as its loader answered or with a panic. -/
theorem loadEnd_or (answer : Handler Engine) (l n : String) (r : LoadResult) (s : Service) :
    loadEnd answer l n s r = r ∨ loadEnd answer l n s r = .panicked := by
  cases r with
  | found c =>
    unfold loadEnd
    dsimp only
    cases (announceCatalog answer l n c s).1 with
    | panicked => exact .inr rfl
    | returned => exact .inl rfl
  | absent => exact .inl rfl
  | failed => exact .inl rfl
  | panicked => exact .inl rfl

theorem returned_of_loadEnd {answer : Handler Engine} {l n : String} {c : Catalog} {s : Service}
    (h : loadEnd answer l n s (.found c) = .found c) :
    (announceCatalog answer l n c s).1 = .returned := by
  cases hending : (announceCatalog answer l n c s).1 with
  | returned => rfl
  | panicked =>
    rw [loadEnd, hending] at h
    exact nomatch h

theorem finishLoad_of_not_found (answer : Handler Engine) (l n : String) {r : LoadResult}
    (h : ∀ c, r ≠ .found c) (s : Service) :
    finishLoad answer l n r s = mapEngine s (·.endLoad l n r) := by
  cases r with
  | found c => exact absurd rfl (h c)
  | absent => rfl
  | failed => rfl
  | panicked => rfl

theorem finishSave_eq (l n k text : String) (r : SaveResult) (s : Service) :
    finishSave l n k text r s = mapEngine s (·.endSave l n k text r) := by
  cases r <;> rfl

/-! ### Listeners that do not panic -/

/-- No one who listens panics. -/
def Steady (s : Service) : Prop :=
  ∀ l ∈ s.engine.listeners, ∀ memory, (l.respond memory).Returns

/-- A call neither brings listeners nor sends them away. -/
theorem conduct_listeners {Q : Request → Prop} :
    Conduct Q fun s t => t.engine.listeners = s.engine.listeners where
  refl := fun _ => rfl
  trans := fun h h' => h'.trans h
  quiet := fun he _ => congrArg Engine.listeners he
  miss := fun _ _ h => (Engine.recordMissing_listeners _ _ _ _ _).trans h
  install := fun _ _ => rfl
  relocate := fun _ _ => rfl

theorem listeners_answer (depth : Nat) (request : Request) (s : Service) :
    (answer depth request s).2.engine.listeners = s.engine.listeners :=
  (conduct_listeners.answer_safe depth request s trivial request.keeps_true s.obeys_true).1

theorem listeners_tellOne (depth : Nat) (l : Listener) (s : Service) :
    (tellOne (answer depth) l s).2.engine.listeners = s.engine.listeners :=
  (conduct_listeners.tellOne (conduct_listeners.answer_safe depth)
    (fun memory => (l.respond memory).keeps_true) s s.obeys_true).1

theorem Steady.of_listeners {t : Service} (hs : s.Steady)
    (hl : t.engine.listeners = s.engine.listeners) : t.Steady := by
  unfold Steady
  rw [hl]
  exact hs

/-- No panic comes out of a request while no listener panics. -/
def Unbroken (depth : Nat) : Prop :=
  ∀ request (s : Service), s.Steady → (answer depth request s).1 ≠ .panicked

theorem Unbroken.run (ha : Unbroken depth) (ticket : Nat) (script : Script)
    (hr : script.Returns) (s : Service) (hs : s.Steady) :
    (script.run (answer depth) ticket s).1 ≠ .panicked := by
  match script with
  | .finish o => exact hr
  | .note entry rest => exact ha.run ticket rest hr (s.log (.noted entry)) hs
  | .remember memory rest => exact ha.run ticket rest hr (s.remember ticket memory) hs
  | .ask request next =>
    rw [Script.run_ask, if_neg (ha request s hs)]
    exact ha.run ticket _ (hr _) _ (hs.of_listeners (listeners_answer depth request s))

theorem Unbroken.tellEach (ha : Unbroken depth) {ls : List Listener}
    (hl : ∀ l ∈ ls, ∀ memory, (l.respond memory).Returns) (s : Service) (hs : s.Steady) :
    (tellEach (answer depth) ls s).1 = .returned := by
  induction ls generalizing s with
  | nil => rfl
  | cons l ls ih =>
    rcases tellEach_cons (answer depth) l ls s with ⟨hpanic, -⟩ | ⟨-, he⟩
    · exact absurd hpanic (ha.run l.ticket _ (hl l List.mem_cons_self _) _ hs)
    · rw [he]
      exact ih (fun l' h => hl l' (List.mem_cons_of_mem _ h)) _
        (hs.of_listeners (listeners_tellOne depth l s))

theorem Unbroken.notify (ha : Unbroken depth) (hs : s.Steady) :
    (notify (answer depth) s).1 = .returned :=
  ha.tellEach hs s hs

theorem Unbroken.announceLocale (ha : Unbroken depth) (locale : String) (hs : s.Steady) :
    (announceLocale (answer depth) locale s).1 = .returned := by
  refine ha.notify (hs.of_listeners ?_)
  exact (conduct_listeners.dispatch (conduct_listeners.answer_safe depth) _ _ _ (obeys_true _)).1

theorem unbroken_answer (depth : Nat) : Unbroken depth := by
  induction depth with
  | zero => exact fun _ _ _ h => nomatch h
  | succ depth ih =>
    intro request s hs
    cases request with
    | addCatalog l n c =>
      have hending : (announceCatalog (answer depth) l n c s).1 = .returned :=
        ih.notify (s := mapEngine s (·.install l n c)) hs
      show (announceCatalog (answer depth) l n c s).1.answer ≠ .panicked
      rw [hending]
      exact fun h => nomatch h
    | setLocale locale =>
      show (announceLocale (answer depth) locale s).1.answer ≠ .panicked
      rw [ih.announceLocale locale hs]
      exact fun h => nomatch h
    | phrase key args => exact fun h => nomatch h
    | register p config =>
      rw [answer, Host.answerRegistry]
      split <;> exact fun h => nomatch h
    | unregister name =>
      rw [answer, Host.answerRegistry]
      split <;> exact fun h => nomatch h
    | setEnabled name enabled => exact fun h => nomatch h
    | clear => exact fun h => nomatch h

theorem loadEnd_of_steady (depth : Nat) (l n : String) (r : LoadResult) (hs : s.Steady) :
    loadEnd (answer depth) l n s r = r := by
  cases r with
  | found c =>
    have hending : (announceCatalog (answer depth) l n c s).1 = .returned :=
      (unbroken_answer depth).notify (s := mapEngine s (·.install l n c)) hs
    rw [loadEnd, hending]
  | absent => rfl
  | failed => rfl
  | panicked => rfl

theorem listeners_finishLoad (depth : Nat) (l n : String) (r : LoadResult) (s : Service) :
    (finishLoad (answer depth) l n r s).engine.listeners = s.engine.listeners := by
  by_cases hr : ∃ c, r = .found c
  · obtain ⟨c, rfl⟩ := hr
    have htold := (conduct_listeners.tell (conduct_listeners.answer_safe depth) l n c
      (mapEngine s (·.install l n c)) (obeys_true _)).1
    rw [finishLoad_found]
    show (Engine.endLoad _ l n _).listeners = _
    rw [Engine.endLoad_listeners]
    exact htold
  · rw [finishLoad_of_not_found _ _ _ fun c hc => hr ⟨c, hc⟩]
    exact Engine.endLoad_listeners _ _ _ _

theorem Steady.step {m : Move} (hm : m.Steady) (hs : s.Steady) : (step depth s m).Steady := by
  cases m with
  | request r => exact hs.of_listeners (listeners_answer (depth + 1) r s)
  | subscribe respond =>
    intro l hl
    rcases List.mem_append.1 hl with hl | hl
    · exact hs l hl
    · rw [List.mem_singleton.1 hl]
      exact hm
  | unsubscribe ticket => exact fun l hl => hs l (List.mem_filter.1 hl).1
  | background available => exact hs
  | ask index =>
    rw [Service.step]
    split
    · exact hs
    · exact hs
  | loadEnds index r =>
    rw [Service.step]
    split
    · exact hs.of_listeners (listeners_finishLoad depth _ _ r s)
    · exact hs
  | saveEnds index r =>
    rw [Service.step]
    split
    · rw [finishSave_eq]
      exact hs.of_listeners (Engine.endSave_listeners _ _ _ _ _ _)
    · exact hs

theorem run_steady (depth : Nat) {ms : List Move} (hm : ∀ m ∈ ms, m.Steady) (hs : s.Steady) :
    (run depth ms s).Steady :=
  run_induction Steady (fun _ _ hm h => h.step hm) hm hs

theorem steady_create (p : ServicePlan) : (create p).2.Steady := by
  have hnone : (create p).2.engine.listeners = [] :=
    (conduct_listeners.create p (fun q _ => q.1.keeps_true) (obeys_true _)).1
  intro l hl
  rw [hnone] at hl
  exact absurd hl List.not_mem_nil

end Service

end Phrasebook
