import Phrasebook.Proofs.Service.Conduct

/-!
# Tasks that a call starts

Whatever a call does, it only appends tasks, each with its marker, for namespaces that are neither
loaded nor being loaded and for keys that are not being saved. `conduct_grows` shows this of every
step of a call, so that it holds of every request.
-/

namespace Phrasebook

/-- The namespace that a load is for. -/
def Job.load? : Job → Option (String × String)
  | .load locale space => some (locale, space)
  | .save _ _ _ _ => none

/-- The key that a save is for. -/
def Job.save? : Job → Option (String × String × String)
  | .load _ _ => none
  | .save locale space name _ => some (locale, space, name)

/-- The namespaces that the tasks load, in order. -/
def loadsOf (ts : List Task) : List (String × String) :=
  ts.filterMap (·.job.load?)

/-- The keys that the tasks save, in order. -/
def savesOf (ts : List Task) : List (String × String × String) :=
  ts.filterMap (·.job.save?)

@[simp] theorem loadsOf_nil : loadsOf [] = [] := rfl

@[simp] theorem savesOf_nil : savesOf [] = [] := rfl

@[simp] theorem loadsOf_append (a b : List Task) : loadsOf (a ++ b) = loadsOf a ++ loadsOf b :=
  List.filterMap_append

@[simp] theorem savesOf_append (a b : List Task) : savesOf (a ++ b) = savesOf a ++ savesOf b :=
  List.filterMap_append

theorem mem_loadsOf {ts : List Task} {l n : String} :
    (l, n) ∈ loadsOf ts ↔ ∃ t ∈ ts, t.job = .load l n := by
  unfold loadsOf
  rw [List.mem_filterMap]
  refine exists_congr fun t => and_congr_right fun _ => ?_
  cases t.job <;> simp [Job.load?]

theorem mem_savesOf {ts : List Task} {l n k : String} :
    (l, n, k) ∈ savesOf ts ↔ ∃ t ∈ ts, ∃ text, t.job = .save l n k text := by
  unfold savesOf
  rw [List.mem_filterMap]
  refine exists_congr fun t => and_congr_right fun _ => ?_
  cases t.job <;> simp [Job.save?]

namespace Engine

/-- From `e` to `e'` exactly the tasks `new` were started. -/
structure Starts (e : Engine) (new : List Task) (e' : Engine) : Prop where
  tasks : e'.tasks = e.tasks ++ new
  loading : e'.loading = e.loading ++ loadsOf new
  saving : e'.saving = e.saving ++ savesOf new
  loaded : ∀ p ∈ e.loaded, p ∈ e'.loaded
  ready : ∀ t ∈ new, t.state = .ready
  loads : ∀ p ∈ loadsOf new, p ∉ e.loaded ∧ p ∉ e.loading
  loads_nodup : (loadsOf new).Nodup
  saves : ∀ q ∈ savesOf new, q ∉ e.saving
  saves_nodup : (savesOf new).Nodup
  background : e'.background = e.background
  idle : e.background = false → new = []

namespace Starts

variable {e e' e'' : Engine} {new more : List Task}

theorem nothing (ht : e'.tasks = e.tasks) (hl : e'.loading = e.loading)
    (hs : e'.saving = e.saving) (hd : ∀ p ∈ e.loaded, p ∈ e'.loaded)
    (hb : e'.background = e.background) : e.Starts [] e' where
  tasks := by rw [ht, List.append_nil]
  loading := by rw [hl, loadsOf_nil, List.append_nil]
  saving := by rw [hs, savesOf_nil, List.append_nil]
  loaded := hd
  ready := fun _ h => by simp at h
  loads := fun _ h => by simp at h
  loads_nodup := by simp
  saves := fun _ h => by simp at h
  saves_nodup := by simp
  background := hb
  idle := fun _ => rfl

theorem refl (e : Engine) : e.Starts [] e :=
  nothing rfl rfl rfl (fun _ h => h) rfl

theorem trans (h : e.Starts new e') (h' : e'.Starts more e'') : e.Starts (new ++ more) e'' where
  tasks := by rw [h'.tasks, h.tasks, List.append_assoc]
  loading := by rw [h'.loading, h.loading, loadsOf_append, List.append_assoc]
  saving := by rw [h'.saving, h.saving, savesOf_append, List.append_assoc]
  loaded := fun p hp => h'.loaded p (h.loaded p hp)
  ready := fun t ht => (List.mem_append.1 ht).elim (h.ready t) (h'.ready t)
  loads := by
    intro p hp
    rw [loadsOf_append] at hp
    rcases List.mem_append.1 hp with hp | hp
    · exact h.loads p hp
    · obtain ⟨hloaded, hloading⟩ := h'.loads p hp
      rw [h.loading, List.mem_append, not_or] at hloading
      exact ⟨fun hmem => hloaded (h.loaded p hmem), hloading.1⟩
  loads_nodup := by
    rw [loadsOf_append]
    refine List.nodup_append.2 ⟨h.loads_nodup, h'.loads_nodup, ?_⟩
    rintro p hp q hq rfl
    have hnot := (h'.loads p hq).2
    rw [h.loading, List.mem_append, not_or] at hnot
    exact hnot.2 hp
  saves := by
    intro q hq
    rw [savesOf_append] at hq
    rcases List.mem_append.1 hq with hq | hq
    · exact h.saves q hq
    · have hnot := h'.saves q hq
      rw [h.saving, List.mem_append, not_or] at hnot
      exact hnot.1
  saves_nodup := by
    rw [savesOf_append]
    refine List.nodup_append.2 ⟨h.saves_nodup, h'.saves_nodup, ?_⟩
    rintro p hp q hq rfl
    have hnot := h'.saves p hq
    rw [h.saving, List.mem_append, not_or] at hnot
    exact hnot.2 hp
  background := h'.background.trans h.background
  idle := by
    intro hb
    rw [h.idle hb, h'.idle (h.background.trans hb)]
    rfl

end Starts

theorem requestSave_starts (e : Engine) (l n k text : String) :
    ∃ new, e.Starts new (e.requestSave l n k text) := by
  unfold requestSave
  split
  · rename_i h
    refine ⟨[{ job := .save l n k text }], rfl, ?_, rfl, fun _ h => h, ?_, ?_, ?_, ?_, ?_, rfl, ?_⟩
    · exact (List.append_nil _).symm
    · simp
    · simp [loadsOf, Job.load?]
    · simp [loadsOf, Job.load?]
    · simpa [savesOf, Job.save?] using h.2.1
    · simp [savesOf, Job.save?]
    · intro hb
      rw [h.2.2] at hb
      exact Bool.noConfusion hb
  · exact ⟨[], Starts.refl e⟩

theorem requestLoad_starts (e : Engine) (l n : String) :
    ∃ new, e.Starts new (e.requestLoad l n) := by
  unfold requestLoad
  split
  · rename_i h
    refine ⟨[{ job := .load l n }], rfl, rfl, ?_, fun _ h => h, ?_, ?_, ?_, ?_, ?_, rfl, ?_⟩
    · exact (List.append_nil _).symm
    · simp
    · simpa [loadsOf, Job.load?] using ⟨h.2.1, h.2.2.1⟩
    · simp [loadsOf, Job.load?]
    · simp [savesOf, Job.save?]
    · simp [savesOf, Job.save?]
    · intro hb
      rw [h.2.2.2] at hb
      exact Bool.noConfusion hb
  · exact ⟨[], Starts.refl e⟩

theorem recordMissing_starts (e : Engine) (l n k text : String) :
    ∃ new, e.Starts new (e.recordMissing l n k text) := by
  by_cases h : k = ""
  · rw [recordMissing, if_pos h]
    exact ⟨[], Starts.refl e⟩
  · have hstore : e.Starts [] { e with store := e.store.set l n k text } :=
      Starts.nothing rfl rfl rfl (fun _ h => h) rfl
    obtain ⟨saves, hsaves⟩ : ∃ new, Starts { e with store := e.store.set l n k text } new
        (requestSaveOfMissing { e with store := e.store.set l n k text } l n k text) := by
      unfold requestSaveOfMissing
      split
      · exact requestSave_starts _ l n k text
      · exact ⟨[], Starts.refl _⟩
    obtain ⟨loads, hloads⟩ := requestLoad_starts
      (requestSaveOfMissing { e with store := e.store.set l n k text } l n k text) l n
    rw [recordMissing_of_ne _ _ _ _ h]
    exact ⟨_, (hstore.trans hsaves).trans hloads⟩

theorem install_starts (e : Engine) (l n : String) (c : Catalog) :
    e.Starts [] (e.install l n c) := by
  refine Starts.nothing rfl rfl rfl (fun p hp => ?_) rfl
  unfold install
  dsimp only
  split
  · exact hp
  · exact List.mem_append_left _ hp

end Engine

namespace Service

/-- Only tasks are started, and no worker is asked. -/
def Grows (s t : Service) : Prop :=
  t.asks = s.asks ∧ ∃ new, s.engine.Starts new t.engine

theorem conduct_grows {Q : Request → Prop} : Conduct Q Grows where
  refl := fun s => ⟨rfl, [], Engine.Starts.refl _⟩
  trans := by
    rintro s t u ⟨ha, new, hs⟩ ⟨ha', more, hs'⟩
    exact ⟨ha'.trans ha, _, hs.trans hs'⟩
  quiet := by
    intro s t he ha
    refine ⟨ha, [], ?_⟩
    rw [he]
    exact Engine.Starts.refl _
  miss := by
    rintro s t l n k count text - ⟨ha, new, hs⟩
    obtain ⟨more, hmore⟩ := Engine.recordMissing_starts t.engine l n k text
    exact ⟨ha, _, hs.trans hmore⟩
  install := fun s _ => ⟨rfl, [], Engine.install_starts _ _ _ _⟩
  relocate := fun _ _ => ⟨rfl, [], Engine.Starts.nothing rfl rfl rfl (fun _ h => h) rfl⟩

end Service

end Phrasebook
