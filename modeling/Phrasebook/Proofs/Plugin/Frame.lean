import Phrasebook.Plugin.Scripted
import Phrasebook.Proofs.Service.Conduct

/-!
# What a called plugin leaves alone

`Script.run_frame` carries a relation of hosts over the steps of a script. A quiet script, one that
asks for nothing, ends in the same way whoever runs it, and `Host.Confined` says what it leaves
alone: all but the notes in the journal and what is remembered under its own ticket.
-/

namespace Phrasebook

variable {ε : Type} {Q : Request → Prop} {answer : Handler ε} {ticket : Nat} {h h' : Host ε}

/-- A preorder that notes, memories and the answers to allowed requests respect is respected by every
script that asks for nothing else. -/
theorem Script.run_frame {R : Host ε → Host ε → Prop} (refl : ∀ h, R h h)
    (trans : ∀ {h h' h''}, R h h' → R h' h'' → R h h'')
    (note : ∀ entry h, R h (h.log (.noted entry)))
    (remember : ∀ memory h, R h (h.remember ticket memory))
    (ask : ∀ request h, Q request → R h (answer request h).2) (script : Script)
    (hk : script.Keeps Q) (h : Host ε) : R h (script.run answer ticket h).2 := by
  match script with
  | .finish o => exact refl h
  | .note entry rest =>
    rw [Script.run]
    exact trans (note entry h) (run_frame refl trans note remember ask rest hk _)
  | .remember memory rest =>
    rw [Script.run]
    exact trans (remember memory h) (run_frame refl trans note remember ask rest hk _)
  | .ask request next =>
    rw [Script.Keeps] at hk
    have hanswer := ask request h hk.1.1
    rw [run_ask]
    split
    · exact hanswer
    · exact trans hanswer (run_frame refl trans note remember ask _ (hk.2 _) _)

def Script.Quiet (script : Script) : Prop :=
  script.Keeps fun _ => False

def Plugin.Quiet (p : Plugin) : Prop :=
  p.Keeps fun _ => False

def Listener.Quiet (l : Listener) : Prop :=
  l.Keeps fun _ => False

/-- How a script ends while everything that it asks for is refused. -/
def Script.outcome : Script → Outcome
  | .finish o => o
  | .note _ rest => rest.outcome
  | .remember _ rest => rest.outcome
  | .ask _ next => (next .refused).outcome

theorem Script.run_outcome (answer : Handler ε) (ticket : Nat) (script : Script)
    (hq : script.Quiet) (h : Host ε) : (script.run answer ticket h).1 = script.outcome := by
  match script with
  | .finish o => rfl
  | .note entry rest => exact run_outcome answer ticket rest hq _
  | .remember memory rest => exact run_outcome answer ticket rest hq _
  | .ask request next =>
    rw [Script.Quiet, Script.Keeps] at hq
    exact hq.1.1.elim

/-- Whatever it is answered, the script ends with such an outcome, unless a panic comes out of what it
asks for. -/
def Script.Ends (P : Outcome → Prop) : Script → Prop
  | .finish o => P o
  | .note _ rest => rest.Ends P
  | .remember _ rest => rest.Ends P
  | .ask _ next => ∀ a, (next a).Ends P

theorem Script.run_ends {P : Outcome → Prop} (answer : Handler ε) (ticket : Nat) (script : Script)
    (hp : P .panicked) (he : script.Ends P) (h : Host ε) : P (script.run answer ticket h).1 := by
  match script with
  | .finish o => exact he
  | .note entry rest => exact run_ends answer ticket rest hp he _
  | .remember memory rest => exact run_ends answer ticket rest hp he _
  | .ask request next =>
    rw [run_ask]
    split
    · exact hp
    · exact run_ends answer ticket _ hp (he (answer request h).1) _

/-- The script does not panic of itself. -/
def Script.Returns (script : Script) : Prop :=
  script.Ends fun o => o ≠ .panicked

def Event.call? : Event → Option (Nat × String × Call)
  | .called ticket name call => some (ticket, name, call)
  | _ => none

namespace Host

/-- The calls that plugins got so far. -/
def calls (h : Host ε) : List (Nat × String × Call) :=
  h.journal.filterMap Event.call?

theorem calls_log (h : Host ε) (e : Event) : (h.log e).calls = h.calls ++ e.call?.toList := by
  unfold calls log
  rw [List.filterMap_append]
  cases he : e.call? <;> simp [he]

theorem lookup_remember (h : Host ε) (ticket other : Nat) (memory : String) (hne : other ≠ ticket) :
    (h.remember ticket memory).memories.lookup other = h.memories.lookup other := by
  have hskip : ∀ ms : List (Nat × String),
      (ms.filter (·.1 != ticket)).lookup other = ms.lookup other := by
    intro ms
    induction ms with
    | nil => rfl
    | cons m ms ih =>
      obtain ⟨t, memory⟩ := m
      by_cases ht : t = ticket
      · have hother : (other == t) = false := by simpa [ht] using hne
        rw [List.filter_cons_of_neg (by simp [ht]), ih, List.lookup_cons, hother]
      · rw [List.filter_cons_of_pos (by simp [ht]), List.lookup_cons, List.lookup_cons, ih]
  have hother : (other == ticket) = false := by simpa using hne
  unfold remember
  rw [List.lookup_cons, hother]
  exact hskip h.memories

/-- Nothing but the notes and what is remembered under the ticket differs. -/
structure Confined (ticket : Nat) (h h' : Host ε) : Prop where
  registry : h'.registry = h.registry
  tickets : h'.tickets = h.tickets
  engine : h'.engine = h.engine
  calls : h'.calls = h.calls
  memories : ∀ other, other ≠ ticket → h'.memories.lookup other = h.memories.lookup other

theorem Confined.refl (h : Host ε) : Confined ticket h h :=
  ⟨rfl, rfl, rfl, rfl, fun _ _ => rfl⟩

theorem Confined.trans {h'' : Host ε} (hl : Confined ticket h h') (hr : Confined ticket h' h'') :
    Confined ticket h h'' :=
  ⟨hr.registry.trans hl.registry, hr.tickets.trans hl.tickets, hr.engine.trans hl.engine,
    hr.calls.trans hl.calls, fun other hne => (hr.memories other hne).trans (hl.memories other hne)⟩

end Host

theorem Script.run_confined (answer : Handler ε) (ticket : Nat) {script : Script}
    (hq : script.Quiet) (h : Host ε) : Host.Confined ticket h (script.run answer ticket h).2 := by
  refine script.run_frame Host.Confined.refl Host.Confined.trans (fun entry h => ?_)
    (fun memory h => ?_) (fun _ _ hno => hno.elim) hq h
  · exact ⟨rfl, rfl, rfl, by rw [Host.calls_log]; exact List.append_nil _, fun _ _ => rfl⟩
  · exact ⟨rfl, rfl, rfl, rfl, fun other hne => h.lookup_remember ticket other memory hne⟩

/-- Texts are all that a scripted plugin asks for. -/
theorem Scripted.quiet_plugin (info : PluginInfo) (config : PluginConfig)
    {actions : List (String × Action)} (ha : ∀ a ∈ actions, a.2.phrase = none) :
    (plugin info config actions).Quiet := by
  have quiet : ∀ memory call, ((plugin info config actions).respond memory call).Quiet := by
    intro memory call
    unfold plugin
    dsimp only
    split
    · rename_i a hfind
      obtain ⟨before, after, rfl, -⟩ := List.lookup_eq_some_iff.1 hfind
      have hnone : a.phrase = none := ha (call.word, a) (by simp)
      unfold Action.script
      rw [hnone]
      exact trivial
    · exact trivial
  exact quiet

end Phrasebook
