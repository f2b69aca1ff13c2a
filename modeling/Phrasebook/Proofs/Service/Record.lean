import Phrasebook.Service

/-!
# What recording a missing key changes

`requestSave` and `requestLoad` touch the background work only, and `recordMissing` besides it the
store. `recordMissing_of_ne` gives its steps in order.
-/

namespace Phrasebook

namespace Engine

variable (e : Engine) (l n k text : String)

theorem requestSave_frame :
    ∃ saving tasks, e.requestSave l n k text = { e with saving, tasks } := by
  unfold requestSave
  split
  · exact ⟨_, _, rfl⟩
  · exact ⟨e.saving, e.tasks, rfl⟩

theorem requestLoad_frame :
    ∃ loading tasks, e.requestLoad l n = { e with loading, tasks } := by
  unfold requestLoad
  split
  · exact ⟨_, _, rfl⟩
  · exact ⟨e.loading, e.tasks, rfl⟩

/-- The engine with the save of a missing key requested, if missing keys are saved. -/
def requestSaveOfMissing : Engine :=
  if e.settings.saveMissing then e.requestSave l n k text else e

theorem recordMissing_of_ne {k : String} (h : k ≠ "") :
    e.recordMissing l n k text =
      (requestSaveOfMissing { e with store := e.store.set l n k text } l n k text).requestLoad
        l n := by
  unfold recordMissing
  rw [if_neg h]
  rfl

theorem recordMissing_frame :
    ∃ saving loading tasks, e.recordMissing l n k text =
      { e with
        store := if k = "" then e.store else e.store.set l n k text
        saving, loading, tasks } := by
  by_cases h : k = ""
  · refine ⟨e.saving, e.loading, e.tasks, ?_⟩
    rw [recordMissing, if_pos h, if_pos h]
  · rw [recordMissing_of_ne _ _ _ _ h, if_neg h, requestSaveOfMissing]
    split
    · obtain ⟨saving, tasks, hsave⟩ :=
        requestSave_frame { e with store := e.store.set l n k text } l n k text
      rw [hsave]
      obtain ⟨loading, tasks', hload⟩ := requestLoad_frame
        { e with store := e.store.set l n k text, saving := saving, tasks := tasks } l n
      exact ⟨saving, loading, tasks', hload⟩
    · obtain ⟨loading, tasks, hload⟩ :=
        requestLoad_frame { e with store := e.store.set l n k text } l n
      exact ⟨e.saving, loading, tasks, hload⟩

theorem recordMissing_listeners : (e.recordMissing l n k text).listeners = e.listeners := by
  obtain ⟨saving, loading, tasks, h⟩ := recordMissing_frame e l n k text
  rw [h]

theorem recordMissing_store :
    (e.recordMissing l n k text).store = if k = "" then e.store else e.store.set l n k text := by
  obtain ⟨saving, loading, tasks, h⟩ := recordMissing_frame e l n k text
  rw [h]

end Engine

end Phrasebook
