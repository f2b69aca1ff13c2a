import Phrasebook.Proofs.Service.Rounds

/-!
# Who listens to which round

A listener listens from its subscription until it is unsubscribed. `listeners_notified` says of every
run that each round calls those who listen then once each, in the order of subscription, up to the
first who panics, that each finds the change in effect, and that this makes one call for every round
that gets to it while it listens. `rounds_of_calm` adds which rounds there are where plugins change
neither catalogs nor locales.
-/

namespace Phrasebook

/-- Whoever begins to listen with this move asks for nothing. -/
def Move.Hushed : Move → Prop
  | .subscribe respond => ∀ memory, (respond memory).Quiet
  | _ => True

/-- The round gets to the listener with this ticket. -/
def Round.reaches (ticket : Nat) (R : Round) : Bool :=
  R.heard.any (·.ticket == ticket)

namespace Service

variable {depth : Nat} {s t : Service} {m : Move} {ms : List Move} {rs : List Round} {ticket : Nat}
  {answer : Handler Engine} {inner : Request → Service → List Round}

/-! ### Plugins that change neither catalogs nor locales -/

def Calm : Request → Prop
  | .addCatalog _ _ _ => False
  | .setLocale _ => False
  | _ => True

/-- Calm requests come without rounds. -/
def Peaceful (answer : Handler Engine) (inner : Request → Service → List Round) : Prop :=
  Safe Calm Grows answer ∧
    ∀ request s, Calm request → request.Keeps Calm → s.Obeys Calm → inner request s = []

theorem Peaceful.script (hp : Peaceful answer inner) (ticket : Nat) (script : Script)
    (hk : script.Keeps Calm) (s : Service) (hs : s.Obeys Calm) :
    scriptRounds answer inner ticket script s = [] := by
  match script with
  | .finish o => rfl
  | .note entry rest => exact hp.script ticket rest hk (s.log (.noted entry)) hs
  | .remember memory rest => exact hp.script ticket rest hk (s.remember ticket memory) hs
  | .ask request next =>
    rw [Script.Keeps] at hk
    have hanswer := (hp.1 request s hk.1.1 hk.1.2 hs).2
    rw [scriptRounds, hp.2 request s hk.1.1 hk.1.2 hs, hp.script ticket _ (hk.2 _) _ hanswer]
    exact ite_self []

theorem Peaceful.call (hp : Peaceful answer inner) (ticket : Nat) {p : Plugin} (hk : p.Keeps Calm)
    (c : Call) (hs : s.Obeys Calm) : callRounds answer inner ticket p c s = [] :=
  hp.script ticket _ (hk.respond _ _) (s.log (.called ticket p.info.name c)) hs

theorem Peaceful.hooks (hp : Peaceful answer inner) (hook : Hook) {regs : List Registration}
    (hr : ∀ r ∈ regs, r.plugin.Keeps Calm) (c : Context) (hs : s.Obeys Calm) :
    hookRounds answer inner hook regs c s = [] := by
  induction regs generalizing c s with
  | nil => rfl
  | cons r regs ih =>
    have hfirst := hr r List.mem_cons_self
    have hcall := (conduct_grows.call hp.1 r.ticket hfirst (hook.call c) s hs).2
    rw [hookRounds]
    dsimp only
    rw [hp.call r.ticket hfirst _ hs, ih (fun r' h => hr r' (List.mem_cons_of_mem _ h)) _ hcall]
    rfl

theorem Peaceful.dispatch (hp : Peaceful answer inner) (hook : Hook) (c : Context)
    (hs : s.Obeys Calm) : dispatchRounds answer inner hook c s = [] :=
  hp.hooks hook (fun r h => hs.1 r (List.mem_filter.1 h).1) c hs

theorem Peaceful.phrase (hp : Peaceful answer inner) (key : String) (args : Arguments)
    (hs : s.Obeys Calm) : phraseRounds answer inner key args s = [] := by
  have hbefore := (conduct_grows.dispatch hp.1 .before (contextFor s.engine key args) s hs).2
  unfold phraseRounds
  dsimp only
  rw [hp.dispatch .before _ hs]
  generalize s.dispatch answer .before (contextFor s.engine key args) = found at hbefore ⊢
  obtain ⟨c, u⟩ := found
  dsimp only at hbefore ⊢
  cases hf : u.engine.findTemplate c.locale (c.space.getD "") (c.name.getD "") (countOf c.vars) with
  | some template => exact hp.dispatch .after _ hbefore
  | none =>
    have hmiss := (conduct_grows.missing (c := { c with result := some (args.text?.getD key) }) hp.1
      (args.text?.getD (c.name.getD "")) hf hbefore).2
    dsimp only
    rw [hp.dispatch .missing _ hbefore]
    exact hp.dispatch .after _ hmiss

theorem Peaceful.clear (hp : Peaceful answer inner) {regs : List Registration}
    (hr : ∀ r ∈ regs, r.plugin.Keeps Calm) (hs : s.Obeys Calm) :
    clearRounds answer inner regs s = [] := by
  induction regs generalizing s with
  | nil => rfl
  | cons r regs ih =>
    have hfirst := hr r List.mem_cons_self
    have hcall : Obeys Calm (s.destroy answer r) :=
      (conduct_grows.call hp.1 r.ticket hfirst .destroy s hs).2
    rw [clearRounds, hp.call r.ticket hfirst _ hs,
      ih (fun r' h => hr r' (List.mem_cons_of_mem _ h)) hcall]
    rfl

theorem peaceful_answer (depth : Nat) : Peaceful (Service.answer depth) (requestRounds depth) := by
  refine ⟨conduct_grows.answer_safe depth, ?_⟩
  induction depth with
  | zero => exact fun _ _ _ _ _ => rfl
  | succ depth ih =>
    intro request s hcalm hk hs
    have hp : Peaceful (Service.answer depth) (requestRounds depth) :=
      ⟨conduct_grows.answer_safe depth, ih⟩
    cases request with
    | phrase key args => exact hp.phrase key args hs
    | addCatalog l n c => exact hcalm.elim
    | setLocale locale => exact hcalm.elim
    | register p config =>
      rw [requestRounds, registerRounds]
      cases s.objection? p.info with
      | some e => rfl
      | none => exact hp.call _ hk _ (s := { s with tickets := s.tickets + 1 }) hs
    | unregister name =>
      rw [requestRounds, unregisterRounds]
      cases hfind : s.find? name with
      | none => rfl
      | some r =>
        dsimp only
        split
        · rfl
        · have hrest : Obeys Calm { s with registry := s.registry.eraseP (·.name == name) } :=
            ⟨fun r hr => hs.1 r (List.mem_of_mem_eraseP hr), hs.2⟩
          exact hp.call _ (hs.1 r (List.mem_of_find?_eq_some hfind)) _ hrest
    | setEnabled name enabled => rfl
    | clear =>
      have hempty : Obeys Calm { s with registry := [] } := ⟨by simp, hs.2⟩
      exact hp.clear (fun r hr => hs.1 r (List.mem_reverse.1 hr)) hempty

/-- The change that a move makes by itself: a catalog that is added or found, or a locale. -/
def change? (s : Service) : Move → Option Change
  | .request (.addCatalog l n c) => some (.catalog l n c)
  | .request (.setLocale locale) => some (.locale s.engine.locale locale)
  | .loadEnds index (.found c) =>
    match s.engine.askedJob? index with
    | some (.load l n) => some (.catalog l n c)
    | _ => none
  | _ => none

/-- Calls for texts, misses, saves and loads without a catalog make no round. -/
theorem rounds_of_calm (depth : Nat) (hs : s.Obeys Calm)
    (hm : ∀ r, m = .request r → r.Keeps Calm) :
    (moveRounds depth s m).map (·.change) = (change? s m).toList := by
  have hp := peaceful_answer depth
  have hcalm : ∀ r, m = .request r → Calm r → moveRounds depth s m = [] := by
    rintro r rfl hr
    exact (peaceful_answer (depth + 1)).2 r s hr (hm r rfl) hs
  cases m with
  | request r =>
    cases r with
    | addCatalog l n c => rfl
    | setLocale locale =>
      have hu : (mapEngine s fun e => { e with locale, formatLocale := locale }).Obeys Calm := hs
      rw [moveRounds, requestRounds, setLocaleRounds, hp.dispatch _ _ hu]
      rfl
    | phrase key args => rw [hcalm _ rfl trivial]; rfl
    | register p config => rw [hcalm _ rfl trivial]; rfl
    | unregister name => rw [hcalm _ rfl trivial]; rfl
    | setEnabled name enabled => rw [hcalm _ rfl trivial]; rfl
    | clear => rw [hcalm _ rfl trivial]; rfl
  | loadEnds index r =>
    cases r with
    | found c =>
      rw [moveRounds, change?]
      cases s.engine.askedJob? index with
      | none => rfl
      | some job =>
        cases job with
        | save => rfl
        | load l n =>
          have hu : (mapEngine s (·.install l n c)).Obeys Calm := hs
          have hnotified := (conduct_grows.notify hp.1 _ hu).2
          dsimp only
          generalize notify (Service.answer depth) (mapEngine s (·.install l n c)) = told
            at hnotified ⊢
          obtain ⟨ending, t⟩ := told
          cases ending with
          | panicked => rfl
          | returned =>
            dsimp only
            rw [hp.dispatch _ _ hnotified]
            rfl
    | absent => rfl
    | failed => rfl
    | panicked => rfl
  | subscribe script => rfl
  | unsubscribe ticket => rfl
  | background available => rfl
  | ask index => rfl
  | saveEnds index r => rfl

/-- Whatever plugins do, there is a round for the change. -/
theorem change_sublist (depth : Nat) (s : Service) (m : Move) :
    (change? s m).toList.Sublist ((moveRounds depth s m).map (·.change)) := by
  cases m with
  | request r =>
    cases r with
    | addCatalog l n c => exact List.Sublist.refl _
    | setLocale locale =>
      rw [moveRounds, requestRounds, setLocaleRounds, List.map_append]
      exact List.sublist_append_right _ _
    | phrase key args => exact List.nil_sublist _
    | register p config => exact List.nil_sublist _
    | unregister name => exact List.nil_sublist _
    | setEnabled name enabled => exact List.nil_sublist _
    | clear => exact List.nil_sublist _
  | loadEnds index r =>
    cases r with
    | found c =>
      rw [moveRounds, change?]
      cases s.engine.askedJob? index with
      | none => exact List.nil_sublist _
      | some job =>
        cases job with
        | save => exact List.nil_sublist _
        | load l n => exact List.Sublist.cons_cons _ (List.nil_sublist _)
    | absent => exact List.nil_sublist _
    | failed => exact List.nil_sublist _
    | panicked => exact List.nil_sublist _
  | subscribe respond => exact List.nil_sublist _
  | unsubscribe ticket => exact List.nil_sublist _
  | background available => exact List.nil_sublist _
  | ask index => exact List.nil_sublist _
  | saveEnds index r => exact List.nil_sublist _

/-! ### Tickets -/

/-- Listeners ask for nothing and are in the order of their tickets, and later tickets are new to the
past. -/
structure Attended (s : Service) : Prop where
  quiet : ∀ l ∈ s.engine.listeners, l.Quiet
  format : s.engine.formatLocale = s.engine.locale
  ordered : s.audience.Pairwise (· < ·)
  current : ∀ x ∈ s.audience, x < s.tickets
  past : ∀ x ∈ s.notified, x < s.tickets

theorem Attended.receptive (hs : s.Attended) : s.Receptive :=
  ⟨hs.quiet, hs.ordered.imp fun h => Nat.ne_of_lt h, hs.format⟩

theorem Round.mem_audience {R : Round} {x : Nat} (hx : x ∈ R.heard.map (·.ticket)) :
    x ∈ R.book.audience :=
  ((reached_initial R.book R.book.engine.listeners).map _).subset hx

theorem Told.attended (h : Told s rs t) (hs : s.Attended) : t.Attended where
  quiet := (h.receptive hs.receptive).quiet
  format := h.format
  ordered := by
    rw [h.audience]
    exact hs.ordered
  current := by
    intro x hx
    rw [h.audience] at hx
    exact Nat.lt_of_lt_of_le (hs.current x hx) h.tickets
  past := by
    intro x hx
    unfold notified at hx
    rw [h.notices, List.map_append] at hx
    refine Nat.lt_of_lt_of_le ?_ h.tickets
    rcases List.mem_append.1 hx with hx | hx
    · exact hs.past x hx
    · obtain ⟨call, hcall, rfl⟩ := List.mem_map.1 hx
      obtain ⟨R, hR, hcall⟩ := List.mem_flatMap.1 hcall
      obtain ⟨l, hl, rfl⟩ := List.mem_map.1 hcall
      refine hs.current _ ?_
      rw [← audience_congr (h.rounds R hR).1]
      exact Round.mem_audience (List.mem_map_of_mem hl)

theorem audience_subscribe (respond : String → Script) (s : Service) :
    (subscribe respond s).2.audience = s.audience ++ [s.tickets] :=
  List.map_append

theorem audience_unsubscribe (ticket : Nat) (s : Service) :
    (unsubscribe ticket s).audience = s.audience.filter (· != ticket) := by
  unfold audience
  rw [List.filter_map]
  rfl

theorem attended_subscribe {respond : String → Script} (hq : ∀ memory, (respond memory).Quiet)
    (hs : s.Attended) : (subscribe respond s).2.Attended where
  quiet := by
    intro l hl
    rcases List.mem_append.1 hl with hl | hl
    · exact hs.quiet l hl
    · rw [List.mem_singleton.1 hl]
      exact hq
  format := hs.format
  ordered := by
    rw [audience_subscribe, List.pairwise_append]
    refine ⟨hs.ordered, List.pairwise_singleton _ _, fun x hx y hy => ?_⟩
    rw [List.mem_singleton.1 hy]
    exact hs.current x hx
  current := by
    intro x hx
    rw [audience_subscribe] at hx
    rcases List.mem_append.1 hx with hx | hx
    · exact Nat.lt_succ_of_lt (hs.current x hx)
    · rw [List.mem_singleton.1 hx]
      exact Nat.lt_succ_self _
  past := fun x hx => Nat.lt_succ_of_lt (hs.past x hx)

theorem attended_unsubscribe (ticket : Nat) (hs : s.Attended) :
    (unsubscribe ticket s).Attended where
  quiet := fun l hl => hs.quiet l (List.mem_filter.1 hl).1
  format := hs.format
  ordered := by
    rw [audience_unsubscribe]
    exact hs.ordered.filter _
  current := by
    intro x hx
    rw [audience_unsubscribe] at hx
    exact hs.current x (List.mem_filter.1 hx).1
  past := hs.past

theorem scriptRounds_none (answer : Handler Engine) (ticket : Nat) (script : Script) (s : Service) :
    scriptRounds answer (fun _ _ => []) ticket script s = [] := by
  match script with
  | .ask request next =>
    rw [scriptRounds, scriptRounds_none answer ticket (next (answer request s).1) _]
    exact ite_self []
  | .note entry rest => exact scriptRounds_none answer ticket rest _
  | .remember memory rest => exact scriptRounds_none answer ticket rest _
  | .finish o => rfl

theorem told_create (p : ServicePlan) : Tells (blank p) [] (create p).2 := by
  have hw : Watched Host.refuse fun _ _ => [] := fun _ s => Tells.log rfl s
  have hregister : ∀ (q : Plugin) (config : Option PluginConfig) (s : Service),
      Tells s [] (s.register Host.refuse q config).2 := by
    intro q config s
    have hnone : registerRounds Host.refuse (fun _ _ => []) q config s = [] := by
      unfold registerRounds
      split
      · rfl
      · exact scriptRounds_none _ _ _ _
    rw [← hnone]
    exact hw.register q config s
  have hall : ∀ (ps : List (Plugin × Option PluginConfig)) (s : Service),
      Tells s [] (registerAll Host.refuse ps s).2 := by
    intro ps
    induction ps with
    | nil => exact fun s => .refl s
    | cons q ps ih =>
      intro s
      rcases registerAll_state Host.refuse q ps s with he | he
      · rw [he]
        exact hregister q.1 q.2 s
      · rw [he]
        exact (hregister q.1 q.2 s).trans (ih _)
  rcases create_state p with he | he
  · rw [he]
    exact .refl _
  · rw [he]
    exact hall p.plugins (blank p)

theorem attended_create (p : ServicePlan) : (create p).2.Attended := by
  have hblank : (blank p).Attended := ⟨by simp [blank], rfl, by simp [audience, blank],
    by simp [audience, blank], by simp [notified, notices, blank]⟩
  exact (told_create p hblank.receptive).attended hblank

/-! ### Moves -/

theorem step_attended (depth : Nat) (hm : m.Hushed) (hs : s.Attended) :
    (step depth s m).Attended := by
  cases m with
  | subscribe respond => exact attended_subscribe hm hs
  | unsubscribe ticket => exact attended_unsubscribe ticket hs
  | _ => exact (step_tells depth s (by simp) (by simp) hs.receptive).attended hs

theorem tickets_step (depth : Nat) (hs : s.Attended) : s.tickets ≤ (step depth s m).tickets := by
  cases m with
  | subscribe respond => exact Nat.le_succ _
  | unsubscribe ticket => exact Nat.le_refl _
  | _ => exact (step_tells depth s (by simp) (by simp) hs.receptive).tickets

/-- Only those who are unsubscribed stop to listen. -/
theorem mem_audience_step (depth : Nat) (hs : s.Attended) (ht : ticket < s.tickets) :
    ticket ∈ (step depth s m).audience ↔ ticket ∈ s.audience ∧ m ≠ .unsubscribe ticket := by
  cases m with
  | subscribe respond =>
    show ticket ∈ (subscribe respond s).2.audience ↔ _
    rw [audience_subscribe]
    have hnew : ticket ≠ s.tickets := Nat.ne_of_lt ht
    simp [hnew]
  | unsubscribe other =>
    show ticket ∈ (unsubscribe other s).audience ↔ _
    rw [audience_unsubscribe, List.mem_filter]
    simp only [bne_iff_ne, ne_eq, Move.unsubscribe.injEq]
    exact and_congr_right fun _ => not_congr eq_comm
  | _ =>
    rw [(step_tells depth s (by simp) (by simp) hs.receptive).audience]
    simp

/-- What makes a round right: it calls those who listen with the change in effect. -/
structure Proper (R : Round) (audience : List Nat) (t : Service) : Prop where
  audience : R.book.audience = audience
  inEffect : R.InEffect
  within : R.Within t

theorem step_rounds (depth : Nat) (m : Move) (hs : s.Attended) :
    (step depth s m).notices = s.notices ++ (moveRounds depth s m).flatMap Round.calls ∧
      s.journal <+: (step depth s m).journal ∧
      ∀ R ∈ moveRounds depth s m, Proper R s.audience (step depth s m) := by
  have told : Told s (moveRounds depth s m) (step depth s m) →
      (step depth s m).notices = s.notices ++ (moveRounds depth s m).flatMap Round.calls ∧
        s.journal <+: (step depth s m).journal ∧
        ∀ R ∈ moveRounds depth s m, Proper R s.audience (step depth s m) := by
    intro h
    refine ⟨h.notices, h.journal, fun R hR => ?_⟩
    obtain ⟨hlisteners, heffect, hwithin⟩ := h.rounds R hR
    exact ⟨audience_congr hlisteners, heffect, hwithin⟩
  cases m with
  | subscribe respond => exact ⟨(List.append_nil _).symm, List.prefix_rfl, by simp [moveRounds]⟩
  | unsubscribe ticket => exact ⟨(List.append_nil _).symm, List.prefix_rfl, by simp [moveRounds]⟩
  | _ => exact told (step_tells depth s (by simp) (by simp) hs.receptive)

/-! ### Runs -/

def rounds (depth : Nat) : List Move → Service → List Round
  | [], _ => []
  | m :: ms, s => moveRounds depth s m ++ rounds depth ms (step depth s m)

theorem rounds_append (a b : List Move) (s : Service) :
    rounds depth (a ++ b) s = rounds depth a s ++ rounds depth b (run depth a s) := by
  induction a generalizing s with
  | nil => rfl
  | cons m a ih =>
    rw [List.cons_append, rounds, rounds, ih, List.append_assoc]
    rfl

theorem run_attended (depth : Nat) (hm : ∀ m ∈ ms, m.Hushed) (hs : s.Attended) :
    (run depth ms s).Attended :=
  run_induction Attended (fun _ _ hm hs => step_attended depth hm hs) hm hs

theorem run_rounds (depth : Nat) (hm : ∀ m ∈ ms, m.Hushed) (hs : s.Attended) :
    (run depth ms s).notices = s.notices ++ (rounds depth ms s).flatMap Round.calls ∧
      s.journal <+: (run depth ms s).journal ∧
      ∀ R ∈ rounds depth ms s,
        ∃ audience, audience.Pairwise (· < ·) ∧ Proper R audience (run depth ms s) := by
  induction ms generalizing s with
  | nil => exact ⟨(List.append_nil _).symm, List.prefix_rfl, by simp [rounds]⟩
  | cons m ms ih =>
    obtain ⟨hfirst, hjournal, hproper⟩ := step_rounds depth m hs
    obtain ⟨hrest, hjournal', hproper'⟩ := ih (fun m' h => hm m' (List.mem_cons_of_mem _ h))
      (step_attended depth (hm m List.mem_cons_self) hs)
    rw [run_cons, hrest, hfirst, rounds, List.flatMap_append, List.append_assoc]
    refine ⟨rfl, hjournal.trans hjournal', fun R hR => ?_⟩
    rcases List.mem_append.1 hR with hR | hR
    · have hround := hproper R hR
      exact ⟨s.audience, hs.ordered, hround.audience, hround.inEffect, hround.within.mono hjournal'⟩
    · exact hproper' R hR

/-- A round calls a listener once if it gets to it. -/
theorem count_calls (ticket : Nat) {R : Round} (hd : R.book.audience.Nodup) :
    (R.calls.map Prod.fst).count ticket = if R.reaches ticket then 1 else 0 := by
  have hcalls : R.calls.map Prod.fst = R.heard.map (·.ticket) := List.map_map
  have hnodup : (R.heard.map (·.ticket)).Nodup :=
    ((reached_initial R.book R.book.engine.listeners).map _).sublist.nodup hd
  have hreaches : R.reaches ticket = true ↔ ticket ∈ R.heard.map (·.ticket) := by
    simp [Round.reaches]
  rw [hcalls]
  split
  · rename_i h
    exact List.count_eq_one_of_mem hnodup (hreaches.1 h)
  · rename_i h
    exact List.count_eq_zero.2 fun hmem => h (hreaches.2 hmem)

theorem count_flatMap_calls (ticket : Nat) (hd : ∀ R ∈ rs, R.book.audience.Nodup) :
    ((rs.flatMap Round.calls).map Prod.fst).count ticket = rs.countP (·.reaches ticket) := by
  induction rs with
  | nil => rfl
  | cons R rs ih =>
    rw [List.flatMap_cons, List.map_append, List.count_append,
      count_calls ticket (hd R List.mem_cons_self),
      ih fun R' h => hd R' (List.mem_cons_of_mem _ h), List.countP_cons, Nat.add_comm]

theorem count_run (ticket depth : Nat) (hm : ∀ m ∈ ms, m.Hushed) (hs : s.Attended) :
    (run depth ms s).notified.count ticket =
      s.notified.count ticket + (rounds depth ms s).countP (·.reaches ticket) := by
  obtain ⟨hnotices, -, hrounds⟩ := run_rounds depth hm hs
  unfold notified
  rw [hnotices, List.map_append, List.count_append, count_flatMap_calls ticket fun R hR => ?_]
  obtain ⟨audience, hordered, hproper⟩ := hrounds R hR
  rw [hproper.audience]
  exact hordered.imp fun h => Nat.ne_of_lt h

/-- Who listens at first and is not unsubscribed is there in every round. -/
theorem run_listening (depth : Nat) (hm : ∀ m ∈ ms, m.Hushed) (hs : s.Attended)
    (hin : ticket ∈ s.audience) (hstay : ∀ m ∈ ms, m ≠ .unsubscribe ticket) :
    ticket ∈ (run depth ms s).audience ∧ ∀ R ∈ rounds depth ms s, ticket ∈ R.book.audience := by
  induction ms generalizing s with
  | nil => exact ⟨hin, by simp [rounds]⟩
  | cons m ms ih =>
    have hnext := (mem_audience_step depth hs (hs.current _ hin)).2
      ⟨hin, hstay m List.mem_cons_self⟩
    obtain ⟨hend, hrest⟩ := ih (fun m' h => hm m' (List.mem_cons_of_mem _ h))
      (step_attended depth (hm m List.mem_cons_self) hs) hnext
      (fun m' h => hstay m' (List.mem_cons_of_mem _ h))
    refine ⟨hend, fun R hR => ?_⟩
    rcases List.mem_append.1 hR with hR | hR
    · rw [((step_rounds depth m hs).2.2 R hR).audience]
      exact hin
    · exact hrest R hR

/-- No round gets to one who does not listen any more. -/
theorem run_gone (depth : Nat) (hm : ∀ m ∈ ms, m.Hushed) (hs : s.Attended)
    (ht : ticket < s.tickets) (hout : ticket ∉ s.audience) :
    (rounds depth ms s).countP (·.reaches ticket) = 0 := by
  induction ms generalizing s with
  | nil => rfl
  | cons m ms ih =>
    have hnext : ticket ∉ (step depth s m).audience := by
      rw [mem_audience_step depth hs ht]
      exact fun h => hout h.1
    rw [rounds, List.countP_append, ih (fun m' h => hm m' (List.mem_cons_of_mem _ h))
      (step_attended depth (hm m List.mem_cons_self) hs)
      (Nat.lt_of_lt_of_le ht (tickets_step depth hs)) hnext, Nat.add_zero, List.countP_eq_zero]
    intro R hR hreaches
    refine hout ?_
    rw [← ((step_rounds depth m hs).2.2 R hR).audience]
    exact Round.mem_audience (by simpa [Round.reaches] using hreaches)

/-- A listener is called once for each round that gets to it from its subscription until it is
unsubscribed, and it is there in all of them. -/
theorem count_listening (depth : Nat) {a b c : List Move} {respond : String → Script}
    (hs : s.Attended) (hm : ∀ m ∈ a ++ .subscribe respond :: (b ++ c), m.Hushed)
    (hb : ∀ m ∈ b, m ≠ .unsubscribe (run depth a s).tickets)
    (hc : c = [] ∨ ∃ rest, c = .unsubscribe (run depth a s).tickets :: rest) :
    let window := rounds depth b (run depth (a ++ [.subscribe respond]) s)
    (run depth (a ++ .subscribe respond :: (b ++ c)) s).notified.count (run depth a s).tickets =
        window.countP (·.reaches (run depth a s).tickets) ∧
      ∀ R ∈ window, (run depth a s).tickets ∈ R.book.audience := by
  have hu : (run depth a s).Attended :=
    run_attended depth (fun m h => hm m (List.mem_append_left _ h)) hs
  rw [run_append, run_append, run_cons, run_cons]
  generalize run depth a s = u at hu hb hc ⊢
  have hv : (subscribe respond u).2.Attended :=
    attended_subscribe (hm (.subscribe respond) (by simp)) hu
  have hnew : (subscribe respond u).2.notified.count u.tickets = 0 :=
    List.count_eq_zero.2 fun h => Nat.lt_irrefl _ (hu.past _ h)
  have hin : u.tickets ∈ (subscribe respond u).2.audience := by
    rw [audience_subscribe]
    exact List.mem_append_right _ List.mem_cons_self
  obtain ⟨hstill, hthere⟩ := run_listening depth (fun m h => hm m (by simp [h])) hv hin hb
  have hquiet : ∀ m ∈ b ++ c, m.Hushed := fun m h => hm m (by simp [List.mem_append.1 h])
  have hcount := count_run u.tickets depth hquiet hv
  have hw : (run depth b (subscribe respond u).2).Attended :=
    run_attended depth (fun m h => hm m (by simp [h])) hv
  have hlater : (rounds depth c (run depth b (subscribe respond u).2)).countP
      (·.reaches u.tickets) = 0 := by
    rcases hc with rfl | ⟨rest, rfl⟩
    · rfl
    · have hout : u.tickets ∉ (unsubscribe u.tickets (run depth b (subscribe respond u).2)).audience := by
        rw [audience_unsubscribe, List.mem_filter]
        simp
      have hafter : ∀ m ∈ rest, m.Hushed := fun m h => hm m (by simp [h])
      have hgone := run_gone depth hafter (attended_unsubscribe u.tickets hw)
        (hw.current _ hstill) hout
      exact hgone
  rw [hnew, rounds_append, List.countP_append, hlater, Nat.zero_add] at hcount
  exact ⟨hcount, hthere⟩

/-- Every round calls those who listen once each, in the order of their subscription, up to the first
who panics, and each finds the change in effect. So a listener is called once for each round that
gets to it while it listens, which is every round as long as no one panics, and not before or after.
There is a round for each catalog that the host adds, each locale that it sets and each catalog that
is found, and where plugins change neither catalogs nor locales, there are no others. -/
theorem listeners_notified (depth : Nat) (p : ServicePlan) {ms : List Move}
    (hm : ∀ m ∈ ms, m.Hushed) :
    let start := (create p).2
    let final := run depth ms start
    final.notices = (rounds depth ms start).flatMap Round.calls ∧
    (∀ R ∈ rounds depth ms start, R.InEffect ∧ R.Within final ∧
      R.book.audience.Pairwise (· < ·) ∧ R.heard <+: R.book.engine.listeners ∧
      ((∀ l ∈ R.heard, l.panics R.book = false) → R.heard = R.book.engine.listeners)) ∧
    (∀ a respond b c, ms = a ++ .subscribe respond :: (b ++ c) →
      let ticket := (run depth a start).tickets
      let window := rounds depth b (run depth (a ++ [.subscribe respond]) start)
      (∀ m ∈ b, m ≠ .unsubscribe ticket) → (c = [] ∨ ∃ rest, c = .unsubscribe ticket :: rest) →
      final.notified.count ticket = window.countP (·.reaches ticket) ∧
        ((∀ R ∈ window, ∀ l ∈ R.heard, l.panics R.book = false) →
          final.notified.count ticket = window.length)) ∧
    ∀ s m, (change? s m).toList.Sublist ((moveRounds depth s m).map (·.change)) ∧
      (s.Obeys Calm → (∀ r, m = .request r → r.Keeps Calm) →
        (moveRounds depth s m).map (·.change) = (change? s m).toList) := by
  intro start final
  have hstart : start.Attended := attended_create p
  obtain ⟨hnotices, -, hrounds⟩ := run_rounds depth hm hstart
  refine ⟨?_, fun R hR => ?_, ?_, fun s m =>
    ⟨change_sublist depth s m, fun hs hr => rounds_of_calm depth hs hr⟩⟩
  · have hsilent : start.notices = [] :=
      (told_create p ⟨by simp [blank], by simp [audience, blank], rfl⟩).notices
    rw [hsilent, List.nil_append] at hnotices
    exact hnotices
  · obtain ⟨audience, hordered, hproper⟩ := hrounds R hR
    refine ⟨hproper.inEffect, hproper.within, ?_, reached_initial _ _, reached_eq⟩
    rw [hproper.audience]
    exact hordered
  · rintro a respond b c rfl ticket window hb hc
    obtain ⟨hcount, hthere⟩ := count_listening depth hstart hm hb hc
    refine ⟨hcount, fun hcalm => hcount.trans (List.countP_eq_length.2 fun R hR => ?_)⟩
    have hall : R.heard = R.book.engine.listeners := reached_eq (hcalm R hR)
    have hmem := hthere R hR
    unfold audience at hmem
    rw [← hall] at hmem
    simpa [Round.reaches] using hmem

/-- Two listeners, of whom the first leaves between a catalog and a locale, and a miss. -/
def leavingMoves : List Move :=
  [.subscribe (.finish .nothing), .subscribe (.note .null (.finish .nothing)),
    .request (.addCatalog "en" "ns" [("a", .text "A")]), .unsubscribe 0,
    .request (.setLocale "en"), .request (.phrase "ns:b" {})]

/-- Every call finds the catalog. -/
theorem listeners_notified_leaving :
    let final := run 1 leavingMoves (create busyPlan).2
    (∀ m ∈ leavingMoves, m.Hushed) ∧ final.notified = [0, 1, 1] ∧ final.notified.count 0 = 1 ∧
      ∀ call ∈ final.notices, call.2.store.get "en" "ns" "a" = some "A" := by
  have hm : ∀ m ∈ leavingMoves, m.Hushed := by
    simp [leavingMoves, Move.Hushed, Script.Quiet, Script.Keeps]
  obtain ⟨hcount, -⟩ := (listeners_notified 1 busyPlan hm).2.2.1 [] (.finish .nothing)
    (leavingMoves.tail.take 2) (leavingMoves.drop 3) rfl (by simp [leavingMoves])
    (.inr ⟨leavingMoves.drop 4, rfl⟩)
  exact ⟨hm, by decide +kernel, hcount, by decide +kernel⟩

/-- The first of two listeners panics, and the second is not told of the catalog. -/
theorem listeners_notified_panicking :
    let ms : List Move := [.subscribe (.finish .panicked), .subscribe (.finish .nothing),
      .request (.addCatalog "en" "ns" [("a", .text "A")])]
    let final := run 1 ms (create busyPlan).2
    (∀ m ∈ ms, m.Hushed) ∧ final.audience = [0, 1] ∧ final.isLoaded "en" "ns" = true ∧
      final.notified = [0] := by
  refine ⟨?_, by decide +kernel, by decide +kernel, by decide +kernel⟩
  simp [Move.Hushed, Script.Quiet, Script.Keeps]

end Service

end Phrasebook
