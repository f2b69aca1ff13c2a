import Phrasebook.Proofs.Plugin.Frame

/-!
# Hooks that ask for nothing

A plugin may ask for something when one hook is called and for nothing when another is. Where every
plugin is quiet, a dispatch is the same whoever would answer requests, and `Host.Undisturbed` says
what it comes to: plugins were called and noted something.
-/

namespace Phrasebook

variable {ε : Type} {answer answer' : Handler ε} {ticket : Nat} {h h' h'' : Host ε} {hook : Hook}

def Event.Incidental : Event → Prop
  | .called _ _ _ => True
  | .noted _ => True
  | _ => False

/-- The plugin asks for nothing when the hook is called. -/
def Registration.QuietTo (hook : Hook) (r : Registration) : Prop :=
  ∀ memory c, (r.plugin.respond memory (hook.call c)).Quiet

theorem Plugin.Keeps.respond {Q : Request → Prop} {p : Plugin} (hp : p.Keeps Q) (memory : String)
    (call : Call) : (p.respond memory call).Keeps Q := by
  obtain ⟨info, config, initial, respond⟩ := p
  rw [Plugin.Keeps] at hp
  exact hp memory call

theorem Plugin.Quiet.quietTo {r : Registration} (hq : r.plugin.Quiet) (hook : Hook) :
    r.QuietTo hook :=
  fun memory c => Plugin.Keeps.respond hq memory (hook.call c)

namespace Host

/-- Plugins may have been called and have noted or kept something, and nothing else happened. -/
structure Undisturbed (h h' : Host ε) : Prop where
  registry : h'.registry = h.registry
  engine : h'.engine = h.engine
  journal : ∃ es : List Event, h'.journal = h.journal ++ es ∧ ∀ e ∈ es, e.Incidental

theorem Undisturbed.refl (h : Host ε) : Undisturbed h h :=
  ⟨rfl, rfl, [], (List.append_nil _).symm, by simp⟩

theorem Undisturbed.trans (hl : Undisturbed h h') (hr : Undisturbed h' h'') :
    Undisturbed h h'' := by
  obtain ⟨es, hes, hincidental⟩ := hl.journal
  obtain ⟨es', hes', hincidental'⟩ := hr.journal
  refine ⟨hr.registry.trans hl.registry, hr.engine.trans hl.engine, es ++ es', ?_, ?_⟩
  · rw [hes', hes, List.append_assoc]
  · intro e he
    exact (List.mem_append.1 he).elim (hincidental e) (hincidental' e)

theorem undisturbed_log (h : Host ε) {e : Event} (he : e.Incidental) : Undisturbed h (h.log e) :=
  ⟨rfl, rfl, [e], rfl, by simpa using he⟩

/-- What a count over the journal does not look at was not disturbed. -/
theorem Undisturbed.filterMap {α : Type} {f : Event → Option α}
    (hf : ∀ e : Event, e.Incidental → f e = none) (hu : Undisturbed h h') :
    h'.journal.filterMap f = h.journal.filterMap f := by
  obtain ⟨es, hes, hincidental⟩ := hu.journal
  have hnone : es.filterMap f = [] :=
    List.filterMap_eq_nil_iff.2 fun e he => hf e (hincidental e he)
  rw [hes, List.filterMap_append, hnone, List.append_nil]

end Host

theorem Script.run_undisturbed (answer : Handler ε) (ticket : Nat) {script : Script}
    (hq : script.Quiet) (h : Host ε) :
    Host.Undisturbed h (script.run answer ticket h).2 :=
  script.run_frame Host.Undisturbed.refl Host.Undisturbed.trans
    (fun _ h => h.undisturbed_log trivial) (fun _ h => ⟨rfl, rfl, (Host.Undisturbed.refl h).journal⟩)
    (fun _ _ hno => hno.elim) hq h

theorem Script.run_congr (answer answer' : Handler ε) (ticket : Nat) (script : Script)
    (hq : script.Quiet) (h : Host ε) : script.run answer ticket h = script.run answer' ticket h := by
  match script with
  | .finish o => rfl
  | .note entry rest => exact run_congr answer answer' ticket rest hq _
  | .remember memory rest => exact run_congr answer answer' ticket rest hq _
  | .ask request next =>
    rw [Script.Quiet, Script.Keeps] at hq
    exact hq.1.1.elim

namespace Host

theorem dispatchTo_undisturbed (answer : Handler ε) {rs : List Registration}
    (hq : ∀ r ∈ rs, r.QuietTo hook) (c : Context) (h : Host ε) :
    Undisturbed h (dispatchTo answer hook rs c h).2 := by
  induction rs generalizing c h with
  | nil => exact .refl h
  | cons r rs ih =>
    have hlog : Undisturbed h (h.log (.called r.ticket r.plugin.info.name (hook.call c))) :=
      h.undisturbed_log trivial
    have hcall := hlog.trans (Script.run_undisturbed answer r.ticket
      (hq r List.mem_cons_self (h.memory r.ticket r.plugin.memory) c) _)
    exact hcall.trans (ih (fun r' hr' => hq r' (List.mem_cons_of_mem _ hr')) _ _)

theorem dispatchTo_congr (answer answer' : Handler ε) {rs : List Registration}
    (hq : ∀ r ∈ rs, r.QuietTo hook) (c : Context) (h : Host ε) :
    dispatchTo answer hook rs c h = dispatchTo answer' hook rs c h := by
  induction rs generalizing c h with
  | nil => rfl
  | cons r rs ih =>
    have hcall : h.call answer r.ticket r.plugin (hook.call c) =
        h.call answer' r.ticket r.plugin (hook.call c) :=
      Script.run_congr answer answer' r.ticket _ (hq r List.mem_cons_self _ _) _
    rw [dispatchTo, dispatchTo, hcall]
    exact ih (fun r' hr' => hq r' (List.mem_cons_of_mem _ hr')) _ _

theorem dispatch_undisturbed (answer : Handler ε) (hq : ∀ r ∈ h.registry, r.QuietTo hook)
    (c : Context) : Undisturbed h (h.dispatch answer hook c).2 :=
  dispatchTo_undisturbed answer (fun r hr => hq r (List.mem_filter.1 hr).1) c h

theorem dispatch_congr (answer answer' : Handler ε) (hq : ∀ r ∈ h.registry, r.QuietTo hook)
    (c : Context) : h.dispatch answer hook c = h.dispatch answer' hook c :=
  dispatchTo_congr answer answer' (fun r hr => hq r (List.mem_filter.1 hr).1) c h

end Host

end Phrasebook
