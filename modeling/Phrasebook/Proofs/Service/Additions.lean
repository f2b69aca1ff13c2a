import Phrasebook.Proofs.Service.Delivery

/-!
# Texts that the host adds

`Engine.Shows` compares a namespace with the catalog that was installed for it: besides the texts of
the catalog it has placeholders, under names without a text and in the place of groups. Calls keep
this up, and a delivery brings another catalog. `added_texts` puts both together: a catalog that the
host adds stands until a load that was under way before delivers another one.
-/

namespace Phrasebook

namespace Engine

variable {l n k : String} {e e' : Engine} {flat find : String → Option String}

/-- A namespace has the texts that `find` gives, those under whole names by `flat`, but for
placeholders. -/
structure Shows (l n : String) (flat find : String → Option String) (e : Engine) : Prop where
  whole : ∀ k v, flat k = some v → e.store.flat? l n k = some v
  text : ∀ k, e.store.get l n k = find k ∨
    find k = none ∧ (e.store.flat? l n k).isSome = true ∨
    flat k = none ∧ e.overwritten l n k = true

/-- From `e` to `e'` the namespace got placeholders only. -/
def Supplements (l n : String) (e e' : Engine) : Prop :=
  e'.Shows l n (e.store.flat? l n) (e.store.get l n)

theorem Shows.of_store (h : e.Shows l n flat find) (hs : e'.store = e.store) :
    e'.Shows l n flat find := by
  have ho : ∀ k, e'.overwritten l n k = e.overwritten l n k := by
    intro k
    unfold overwritten
    rw [hs]
  constructor
  · rw [hs]
    exact h.whole
  · intro k
    rw [hs, ho]
    exact h.text k

theorem Shows.of_catalog {c : Catalog} (h : e.store.catalog? l n = some c) :
    e.Shows l n c.flat? c.find? := by
  constructor
  · intro k v hk
    unfold Store.flat?
    rw [h]
    exact hk
  · intro k
    left
    unfold Store.get
    rw [h]
    rfl

theorem Supplements.of_catalog (h : e'.store.catalog? l n = e.store.catalog? l n) :
    e.Supplements l n e' := by
  constructor
  · intro k v hk
    unfold Store.flat? at hk ⊢
    rw [h]
    exact hk
  · intro k
    left
    unfold Store.get
    rw [h]

theorem overwritten_of_flat (h : ∀ g v, e.store.flat? l n g = some v → e'.store.flat? l n g = some v)
    (ho : e.overwritten l n k = true) : e'.overwritten l n k = true := by
  unfold overwritten at ho ⊢
  obtain ⟨g, hg, hsome⟩ := (Option.any_eq_true _ _).1 ho
  obtain ⟨v, hv⟩ := Option.isSome_iff_exists.1 hsome
  exact (Option.any_eq_true _ _).2 ⟨g, hg, by rw [h g v hv]; rfl⟩

/-- Behind a group that is gone nothing but a text under the whole name is found. -/
theorem get_of_overwritten (h : e.overwritten l n k = true) :
    e.store.get l n k = e.store.flat? l n k := by
  unfold overwritten at h
  obtain ⟨g, hg, hsome⟩ := (Option.any_eq_true _ _).1 h
  obtain ⟨v, hv⟩ := Option.isSome_iff_exists.1 hsome
  obtain ⟨c, hc, hflat⟩ := Option.bind_eq_some_iff.1 hv
  obtain ⟨entry, hentry, htext⟩ := Option.bind_eq_some_iff.1 hflat
  have hwalk : c.walk? k = none := by
    unfold Catalog.firstGroup? at hg
    split at hg
    · rename_i hdot
      obtain ⟨p, q, ps, hp⟩ := Text.pieces_of_mem hdot
      obtain rfl : String.ofList p = g := by simpa [hp] using hg
      unfold Catalog.walk?
      rw [if_pos hdot, hp, List.map_cons, List.map_cons, Entry.follow, hentry]
      cases entry with
      | text w => rfl
      | group entries => simp [Entry.text?] at htext
    · simp at hg
  unfold Store.get Store.flat?
  rw [hc, Option.bind_some, Option.bind_some, Catalog.find?_eq, hwalk, Option.or_none]

/-- A text is found, unless it was in a group that is gone. -/
theorem Shows.get_of_find {v : String} (h : e.Shows l n flat find) (hv : find k = some v)
    (hk : ¬ (flat k = none ∧ e.overwritten l n k = true)) : e.store.get l n k = some v := by
  rcases h.text k with hsame | ⟨hnone, -⟩ | hburied
  · exact hsame.trans hv
  · rw [hnone] at hv
    simp at hv
  · exact absurd hburied hk

/-- Instead of any other text, one that is stored under the whole name is found. -/
theorem Shows.get_of_lost (h : e.Shows l n flat find)
    (hk : find k = none ∨ flat k = none ∧ e.overwritten l n k = true) :
    e.store.get l n k = e.store.flat? l n k := by
  rcases h.text k with hsame | ⟨-, hsome⟩ | ⟨-, hover⟩
  · rcases hk with hnone | ⟨-, hover⟩
    · have hget : e.store.get l n k = none := hsame.trans hnone
      cases hf : e.store.flat? l n k with
      | none => exact hget
      | some v =>
        rw [Store.get_of_flat? hf] at hget
        simp at hget
    · exact get_of_overwritten hover
  · obtain ⟨v, hv⟩ := Option.isSome_iff_exists.1 hsome
    rw [hv, Store.get_of_flat? hv]
  · exact get_of_overwritten hover

theorem Shows.supplements (h : e.Shows l n flat find) (h' : e.Supplements l n e') :
    e'.Shows l n flat find := by
  refine ⟨fun k v hk => h'.whole k v (h.whole k v hk), fun k => ?_⟩
  rcases h.text k with hsame | ⟨hnone, hsome⟩ | ⟨hnone, hover⟩
  · rcases h'.text k with hsame' | ⟨hnone', hsome'⟩ | ⟨hnone', hover'⟩
    · exact .inl (hsame'.trans hsame)
    · exact .inr (.inl ⟨hsame.symm.trans hnone', hsome'⟩)
    · refine .inr (.inr ⟨?_, hover'⟩)
      cases hf : flat k with
      | none => rfl
      | some v =>
        rw [h.whole k v hf] at hnone'
        simp at hnone'
  · obtain ⟨v, hv⟩ := Option.isSome_iff_exists.1 hsome
    exact .inr (.inl ⟨hnone, by rw [h'.whole k v hv]; rfl⟩)
  · exact .inr (.inr ⟨hnone, overwritten_of_flat h'.whole hover⟩)

/-- A placeholder under a name that had no text before. -/
theorem Supplements.set {u : Engine} {name text : String} (h : e.Supplements l n e')
    (hmiss : e.store.get l n name = none) (hu : u.store = e'.store.set l n name text) :
    e.Supplements l n u := by
  have hflat : ∀ k, u.store.flat? l n k =
      if k = name then some text else e'.store.flat? l n k := by
    intro k
    rw [hu, Store.flat?_set]
    simp
  have hget : ∀ k, u.store.get l n k = if k = name then some text
      else if Catalog.firstGroup? k = some name then e'.store.flat? l n k
      else e'.store.get l n k := by
    intro k
    rw [hu, Store.get_set, if_pos ⟨rfl, rfl⟩]
  refine ⟨fun k v hv => ?_, fun k => ?_⟩
  · have hother : k ≠ name := by
      rintro rfl
      rw [Store.get_of_flat? hv] at hmiss
      simp at hmiss
    rw [hflat, if_neg hother]
    exact h.whole k v hv
  by_cases hk : k = name
  · subst hk
    exact .inr (.inl ⟨hmiss, by rw [hflat, if_pos rfl]; rfl⟩)
  by_cases hgroup : Catalog.firstGroup? k = some name
  · -- the placeholder stands in the place of the group that `k` leads through
    cases hf : e.store.flat? l n k with
    | some v =>
      left
      rw [hget, if_neg hk, if_pos hgroup, h.whole k v hf, Store.get_of_flat? hf]
    | none =>
      refine .inr (.inr ⟨rfl, ?_⟩)
      unfold overwritten
      rw [hgroup, Option.any_some, hflat, if_pos rfl]
      rfl
  · rw [hget, if_neg hk, if_neg hgroup, hflat, if_neg hk]
    exact (h.text k).imp_right
      (Or.imp_right fun hlost => ⟨hlost.1, overwritten_set hu hlost.2⟩)

theorem Supplements.recordMissing {l' n' k' : String} (text : String) (h : e.Supplements l n e')
    (hmiss : e.store.get l' n' k' = none) :
    e.Supplements l n (e'.recordMissing l' n' k' text) := by
  by_cases hname : k' = ""
  · rw [Engine.recordMissing, if_pos hname]
    exact h
  have hstore : (e'.recordMissing l' n' k' text).store = e'.store.set l' n' k' text := by
    rw [recordMissing_store, if_neg hname]
  by_cases hplace : l = l' ∧ n = n'
  · obtain ⟨rfl, rfl⟩ := hplace
    exact h.set hmiss hstore
  · refine Shows.supplements h (.of_catalog ?_)
    rw [hstore]
    unfold Store.set
    rw [Store.catalog?_setCatalog, if_neg hplace]

end Engine

namespace Service

variable {l n k : String} {depth : Nat} {s t : Service} {m : Move}

/-- Whatever a call leads to, the namespace gets placeholders only, as long as no catalog is added
for it. -/
theorem conduct_supplements (l n : String) :
    Conduct (Spares l n) fun s t => s.engine.Supplements l n t.engine where
  refl := fun _ => .of_catalog rfl
  trans := fun h h' => h.supplements h'
  quiet := fun he _ => .of_catalog (by rw [he])
  miss := fun text hf h => h.recordMissing text (Engine.get_of_findTemplate_eq_none hf)
  install := by
    intro l' n' c s hq
    refine .of_catalog ?_
    show (s.engine.store.setCatalog l' n' c).catalog? l n = _
    rw [Store.catalog?_setCatalog, if_neg fun h => hq ⟨h.1.symm, h.2.symm⟩]
  relocate := fun _ _ => .of_catalog rfl

/-- The catalogs that are delivered for the namespace. -/
def deliveries (depth : Nat) (l n : String) : List Move → Service → List Catalog
  | [], _ => []
  | m :: ms, s => (delivered? l n s m).toList ++ deliveries depth l n ms (step depth s m)

/-- What is known after the deliveries `ds` since the catalog `c` was added, when `b` loads were
under way. -/
structure Standing (l n : String) (b : Nat) (c : Catalog) (ds : List Catalog) (s : Service) :
    Prop where
  obeys : s.Obeys (Spares l n)
  loaded : (l, n) ∈ s.engine.loaded
  count : ds.length + (loadsOf s.engine.tasks).count (l, n) ≤ b
  shows_last : s.engine.Shows l n (ds.getLast?.getD c).flat? (ds.getLast?.getD c).find?

def Goes (l n : String) (s t : Service) : Prop :=
  Grows s t ∧ s.engine.Supplements l n t.engine

theorem conduct_goes (l n : String) : Conduct (Spares l n) (Goes l n) :=
  conduct_grows.and (conduct_supplements l n)

theorem Grows.count_load (h : Grows s t) (hl : (l, n) ∈ s.engine.loaded) :
    (l, n) ∈ t.engine.loaded ∧
      (loadsOf t.engine.tasks).count (l, n) = (loadsOf s.engine.tasks).count (l, n) := by
  obtain ⟨-, new, hs⟩ := h
  have hnew : (l, n) ∉ loadsOf new := fun hmem => (hs.loads _ hmem).1 hl
  refine ⟨hs.loaded _ hl, ?_⟩
  rw [hs.tasks, loadsOf_append, List.count_append, List.count_eq_zero.2 hnew, Nat.add_zero]

theorem Standing.step {b : Nat} {c : Catalog} {ds : List Catalog} (h : Standing l n b c ds s)
    (depth : Nat) (hm : m.Keeps (Spares l n)) :
    Standing l n b c (ds ++ (delivered? l n s m).toList) (step depth s m) := by
  obtain ⟨hpassage, hobeys⟩ :=
    step_passage (conduct_goes l n) (fun _ _ _ hne => hne) depth hm h.obeys
  generalize Service.step depth s m = t at hpassage hobeys ⊢
  have hcount := h.count
  cases hpassage with
  | @leads m u t hd hr hs =>
    obtain ⟨hgrows, hsupplements⟩ := hr
    obtain ⟨hloaded, hsame⟩ := hgrows.count_load h.loaded
    have hle : (loadsOf t.engine.tasks).count (l, n) ≤ (loadsOf u.engine.tasks).count (l, n) :=
      (hs.tasks.filterMap _).count_le _
    rw [hd, Option.toList_none, List.append_nil]
    refine ⟨hobeys, ?_, by omega, ?_⟩
    · rw [hs.loaded]
      exact hloaded
    · exact (h.shows_last.supplements hsupplements).of_store hs.store
  | @asked index job hj =>
    rw [show delivered? l n s (.ask index) = none from rfl, Option.toList_none, List.append_nil]
    refine ⟨hobeys, h.loaded, ?_, h.shows_last.of_store rfl⟩
    simp only [ask, mapEngine, Host.log, loadsOf_setState]
    exact hcount
  | @delivered index d r u t hj hr ht =>
    -- one load fewer is under way, which pays for the delivery
    obtain ⟨hgrows, hsupplements⟩ := hr
    have hload : (l, n) ∈ loadsOf s.engine.tasks :=
      mem_loadsOf.2 (Engine.mem_tasks_of_askedJob? hj)
    obtain ⟨hloaded, hsame⟩ := hgrows.count_load (mem_loaded_install s.engine l n d)
    have hbefore : 0 < (loadsOf s.engine.tasks).count (l, n) := List.count_pos_iff.2 hload
    have hcatalog : (s.engine.install l n d).store.catalog? l n = some d := by
      show (s.engine.store.setCatalog l n d).catalog? l n = some d
      rw [Store.catalog?_setCatalog, if_pos ⟨rfl, rfl⟩]
    have hshows := (Engine.Shows.of_catalog hcatalog).supplements hsupplements
    change _ = (loadsOf s.engine.tasks).count (l, n) at hsame
    subst ht
    have hends := settles_endLoad u l n r
    rw [show delivered? l n s (.loadEnds index (.found d)) = some d from if_pos hj]
    refine ⟨hobeys, hends.loaded ▸ hloaded, ?_, ?_⟩
    · show _ + (loadsOf (u.engine.endLoad l n r).tasks).count (l, n) ≤ b
      rw [Engine.endLoad_tasks, loadsOf_dropLoad, List.count_erase_self, List.length_append,
        Option.toList_some, List.length_singleton]
      omega
    · rw [Option.toList_some, List.getLast?_concat, Option.getD_some]
      exact hshows.of_store hends.store

theorem Standing.run {b : Nat} {c : Catalog} {ds : List Catalog} {ms : List Move}
    (h : Standing l n b c ds s) (depth : Nat) (hm : ∀ m ∈ ms, m.Keeps (Spares l n)) :
    Standing l n b c (ds ++ deliveries depth l n ms s) (run depth ms s) := by
  induction ms generalizing s ds with
  | nil =>
    rw [deliveries, List.append_nil]
    exact h
  | cons m ms ih =>
    have hfirst := h.step depth (hm m List.mem_cons_self)
    have hrest := ih hfirst fun m' hm' => hm m' (List.mem_cons_of_mem _ hm')
    rw [List.append_assoc] at hrest
    exact hrest

theorem standing_add (depth : Nat) (c : Catalog) (ho : s.Obeys (Spares l n)) :
    Standing l n ((loadsOf s.engine.tasks).count (l, n)) c []
      (step depth s (.request (.addCatalog l n c))) := by
  have hsafe := (conduct_goes l n).answer_safe depth
  obtain ⟨⟨hgrows, hsupplements⟩, hobeys⟩ :=
    (conduct_goes l n).notify hsafe (mapEngine s (·.install l n c)) ho
  obtain ⟨hloaded, hsame⟩ := hgrows.count_load (mem_loaded_install s.engine l n c)
  have hcatalog : (s.engine.install l n c).store.catalog? l n = some c := by
    show (s.engine.store.setCatalog l n c).catalog? l n = some c
    rw [Store.catalog?_setCatalog, if_pos ⟨rfl, rfl⟩]
  refine ⟨hobeys, hloaded, ?_, (Engine.Shows.of_catalog hcatalog).supplements hsupplements⟩
  rw [List.length_nil, Nat.zero_add]
  exact Nat.le_of_eq hsame

/-- Until the host adds another catalog for the namespace, at most one is delivered for it, by a load
that was under way. The last of these catalogs is the one in force: its texts are found and
rendered, but for those in a group that a placeholder has taken the place of, and of all others only
placeholders are found. -/
theorem added_texts (depth : Nat) (p : ServicePlan) (past : List Move) (c : Catalog)
    {ms : List Move} (ho : (run depth past (create p).2).Obeys (Spares l n))
    (hm : ∀ m ∈ ms, m.Keeps (Spares l n)) :
    let s := run depth past (create p).2
    let added := step depth s (.request (.addCatalog l n c))
    let t := run depth ms added
    let ds := deliveries depth l n ms added
    let d := ds.getLast?.getD c
    ds.length ≤ 1 ∧ ((l, n) ∉ loadsOf s.engine.tasks → ds = []) ∧
      (∀ k v, d.find? k = some v → ¬ (d.flat? k = none ∧ t.engine.overwritten l n k = true) →
        t.engine.store.get l n k = some v ∧
          ∀ key args, t.registry = [] → t.engine.locale = l →
            Key.parse t.engine.settings.defaultSpace l key = ⟨n, k⟩ → countOf args.vars = none →
            (phrase (answer depth) key args t).1 = t.engine.render v args.vars) ∧
      ∀ k, d.find? k = none ∨ d.flat? k = none ∧ t.engine.overwritten l n k = true →
        t.engine.store.get l n k = t.engine.store.flat? l n k := by
  intro s added t ds d
  have htracked : s.engine.Tracked := run_tracked depth past (exact_create p).toTracked
  have hstanding : Standing l n ((loadsOf s.engine.tasks).count (l, n)) c ds t :=
    (standing_add depth c ho).run depth hm
  have hshows : t.engine.Shows l n d.flat? d.find? := hstanding.shows_last
  have hcount := hstanding.count
  refine ⟨?_, fun hnot => ?_, fun k v hv hfound => ?_, fun k hlost => ?_⟩
  · have honce := List.nodup_iff_count.1 htracked.loads_nodup (l, n)
    omega
  · rw [List.count_eq_zero.2 hnot] at hcount
    exact List.length_eq_zero_iff.1 (by omega)
  · have hget : t.engine.store.get l n k = some v := hshows.get_of_find hv hfound
    refine ⟨hget, fun key args hr hl hkey hargs => ?_⟩
    rw [← hl] at hkey hget
    rw [phrase_of_get hr _ hkey hargs hget]
  · exact hshows.get_of_lost hlost

def pastMoves : List Move :=
  [.request (.phrase "ns:a" {})]

def endMoves (r : LoadResult) : List Move :=
  [.ask 1, .loadEnds 1 r, .request (.phrase "ns:b" {})]

theorem spares_endMoves (r : LoadResult) : ∀ m ∈ endMoves r, m.Keeps (Spares "en" "ns") := by
  simp [endMoves, Move.Keeps, Spares, Request.Keeps]

theorem obeys_pastMoves : (run 1 pastMoves (create busyPlan).2).Obeys (Spares "en" "ns") := by
  have hregistry : (create busyPlan).2.registry = [] := by rfl
  have hlisteners : (create busyPlan).2.engine.listeners = [] := by rfl
  have hopened : (create busyPlan).2.Obeys (Spares "en" "ns") := by
    constructor
    · rw [hregistry]
      simp
    · rw [hlisteners]
      simp
  exact ((conduct_goes "en" "ns").answer_safe 2 (.phrase "ns:a" {}) _ trivial trivial hopened).2

/-- The load fails, and the text that was added is rendered. -/
theorem added_texts_stay :
    let added := step 1 (run 1 pastMoves (create busyPlan).2)
      (.request (.addCatalog "en" "ns" [("a", .text "x")]))
    let t := run 1 (endMoves .failed) added
    t.engine.store.get "en" "ns" "a" = some "x" ∧ (phrase (answer 1) "ns:a" {} t).1 = "x" := by
  obtain ⟨-, -, hkept, -⟩ := added_texts 1 busyPlan pastMoves [("a", .text "x")] obeys_pastMoves
    (spares_endMoves .failed)
  have hnone : deliveries 1 "en" "ns" (endMoves .failed)
      (step 1 (run 1 pastMoves (create busyPlan).2)
        (.request (.addCatalog "en" "ns" [("a", .text "x")]))) = [] := by rfl
  rw [hnone] at hkept
  have hfound : Catalog.find? [("a", .text "x")] "a" = some "x" := by decide +kernel
  have hflat : Catalog.flat? [("a", .text "x")] "a" = some "x" := by decide +kernel
  obtain ⟨hget, hrender⟩ := hkept "a" "x" hfound fun hburied => by
    rw [List.getLast?_nil, Option.getD_none, hflat] at hburied
    simp at hburied
  exact ⟨hget, hrender "ns:a" {} (by rfl) (by decide +kernel) (by decide +kernel) (by rfl)⟩

/-- The load brings a catalog without the text, and it is lost. -/
theorem added_texts_lost :
    let added := step 1 (run 1 pastMoves (create busyPlan).2)
      (.request (.addCatalog "en" "ns" [("a", .text "x")]))
    let t := run 1 (endMoves (.found [("other", .text "y")])) added
    (create busyPlan).1.isOk = true ∧ added.engine.store.get "en" "ns" "a" = some "x" ∧
      t.engine.store.get "en" "ns" "a" = none ∧ (phrase (answer 1) "ns:a" {} t).1 = "ns:a" := by
  refine ⟨by decide +kernel, by decide +kernel, by decide +kernel, by decide +kernel⟩

end Service

end Phrasebook
