import Phrasebook.Proofs.Service.InFlight
import Phrasebook.Proofs.Service.Vacancy

/-!
# Deliveries

A load that ends with a catalog delivers it, and the catalog takes the place of the one that the
namespace had. `step_passage` sets these moves apart: every other move leads along whatever relation
the calls of plugins and listeners lead along.
-/

namespace Phrasebook

namespace Service

variable {Q : Request → Prop} {R : Service → Service → Prop} {depth : Nat} {s t : Service} {m : Move}
  {l n : String}

/-- The catalog that a move delivers for the namespace. -/
def delivered? (l n : String) (s : Service) : Move → Option Catalog
  | .loadEnds index (.found c) =>
    if s.engine.askedJob? index = some (.load l n) then some c else none
  | _ => none

/-- From `s` to `t` a task may have ended, and the texts are the same. -/
structure Settles (s t : Service) : Prop where
  asks : t.asks = s.asks
  store : t.engine.store = s.engine.store
  loaded : t.engine.loaded = s.engine.loaded
  tasks : t.engine.tasks.Sublist s.engine.tasks

theorem Settles.refl (s : Service) : Settles s s :=
  ⟨rfl, rfl, rfl, List.Sublist.refl _⟩

theorem settles_endLoad (s : Service) (l n : String) (r : LoadResult) :
    Settles s (mapEngine s (·.endLoad l n r)) := by
  have htasks : (s.engine.endLoad l n r).tasks.Sublist s.engine.tasks := by
    rw [Engine.endLoad_tasks]
    exact List.eraseP_sublist
  cases r <;> exact ⟨rfl, rfl, rfl, htasks⟩

theorem settles_endSave (s : Service) (l n k text : String) (r : SaveResult) :
    Settles s (mapEngine s (·.endSave l n k text r)) := by
  have htasks : (s.engine.endSave l n k text r).tasks.Sublist s.engine.tasks := by
    rw [Engine.endSave_tasks]
    exact List.eraseP_sublist
  cases r <;> exact ⟨rfl, rfl, rfl, htasks⟩

/-- A move leads along the relation, asks a worker, or delivers a catalog for the namespace. -/
inductive Passage (R : Service → Service → Prop) (l n : String) (s : Service) :
    Move → Service → Prop
  | leads {m u t} (hd : delivered? l n s m = none) (hr : R s u) (ht : Settles u t) :
      Passage R l n s m t
  | asked {index job} (h : s.engine.readyJob? index = some job) :
      Passage R l n s (.ask index) (ask index job s)
  | delivered {index c r u t} (h : s.engine.askedJob? index = some (.load l n))
      (hr : R (mapEngine s (·.install l n c)) u) (ht : t = mapEngine u (·.endLoad l n r)) :
      Passage R l n s (.loadEnds index (.found c)) t

theorem Obeys.endLoad (ho : s.Obeys Q) (l n : String) (r : LoadResult) :
    (mapEngine s (·.endLoad l n r)).Obeys Q := by
  refine ⟨ho.1, ?_⟩
  show ∀ li ∈ (Engine.endLoad _ l n r).listeners, li.Keeps Q
  rw [Engine.endLoad_listeners]
  exact ho.2

theorem passage_finishLoad (hc : Conduct Q R) (hq : ∀ l' n' c, ¬ (l' = l ∧ n' = n) →
    Q (.addCatalog l' n' c)) {index : Nat} {l' n' : String} {r : LoadResult} (ho : s.Obeys Q)
    (h : s.engine.askedJob? index = some (.load l' n')) :
    Passage R l n s (.loadEnds index r) (finishLoad (answer depth) l' n' r s) ∧
      (finishLoad (answer depth) l' n' r s).Obeys Q := by
  by_cases hr : ∃ c, r = .found c
  · obtain ⟨c, rfl⟩ := hr
    have htell := hc.tell (hc.answer_safe depth) l' n' c (mapEngine s (·.install l' n' c))
    obtain ⟨htold, hobeys⟩ := htell ho
    rw [finishLoad_found]
    refine ⟨?_, hobeys.endLoad _ _ _⟩
    by_cases hplace : l' = l ∧ n' = n
    · obtain ⟨rfl, rfl⟩ := hplace
      exact .delivered h htold rfl
    · have hinstall := hc.install (c := c) s (hq l' n' c hplace)
      refine .leads (if_neg fun he => ?_) (hc.trans hinstall htold) (settles_endLoad _ _ _ _)
      injection h.symm.trans he with hjob
      injection hjob with hl hn
      exact hplace ⟨hl, hn⟩
  · have hnot : ∀ c, r ≠ .found c := fun c hc => hr ⟨c, hc⟩
    have hnone : delivered? l n s (.loadEnds index r) = none := by
      cases r with
      | found c => exact absurd rfl (hnot c)
      | absent => rfl
      | failed => rfl
      | panicked => rfl
    rw [finishLoad_of_not_found _ _ _ hnot]
    exact ⟨.leads hnone (hc.refl s) (settles_endLoad _ _ _ _), ho.endLoad _ _ _⟩

/-- There is no other way for a move, while plugins and listeners obey. -/
theorem step_passage (hc : Conduct Q R)
    (hq : ∀ l' n' c, ¬ (l' = l ∧ n' = n) → Q (.addCatalog l' n' c)) (depth : Nat)
    (hm : m.Keeps Q) (ho : s.Obeys Q) :
    Passage R l n s m (step depth s m) ∧ (step depth s m).Obeys Q := by
  have still : ∀ {m t}, delivered? l n s m = none → Settles s t → Passage R l n s m t :=
    fun hd ht => .leads hd (hc.refl s) ht
  cases m with
  | request r =>
    obtain ⟨hr, hobeys⟩ := hc.answer_safe (depth + 1) r s hm.1 hm.2 ho
    exact ⟨.leads rfl hr (.refl _), hobeys⟩
  | subscribe script =>
    refine ⟨still rfl ⟨rfl, rfl, rfl, List.Sublist.refl _⟩, ho.1, fun li hli => ?_⟩
    rcases List.mem_append.1 hli with hli | hli
    · exact ho.2 li hli
    · rw [List.mem_singleton.1 hli]
      exact hm
  | unsubscribe ticket =>
    refine ⟨still rfl ⟨rfl, rfl, rfl, List.Sublist.refl _⟩, ho.1, fun li hli => ?_⟩
    exact ho.2 li (List.mem_filter.1 hli).1
  | background available => exact ⟨still rfl ⟨rfl, rfl, rfl, List.Sublist.refl _⟩, ho⟩
  | ask index =>
    rw [step]
    split
    · rename_i h
      exact ⟨.asked h, ho⟩
    · exact ⟨still rfl (.refl s), ho⟩
  | loadEnds index r =>
    rw [step]
    split
    · rename_i h
      exact passage_finishLoad hc hq ho h
    · rename_i h
      have hnone : delivered? l n s (.loadEnds index r) = none := by
        cases r with
        | found c => exact if_neg fun he => h _ _ he
        | absent => rfl
        | failed => rfl
        | panicked => rfl
      exact ⟨still hnone (.refl s), ho⟩
  | saveEnds index r =>
    rw [step]
    split
    · rename_i l' n' k' text h
      rw [finishSave_eq]
      refine ⟨still rfl (settles_endSave s l' n' k' text r), ho.1, ?_⟩
      cases r <;> exact ho.2
    · exact ⟨still rfl (.refl s), ho⟩

end Service

end Phrasebook
