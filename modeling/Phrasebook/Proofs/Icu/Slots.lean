import Phrasebook.Proofs.Template.Harmless

/-!
# Slots in a text in work

In a template without the character that opens a slot, only sweeps write slots, and no sweep takes
one apart. `Work.Tidy` is what they keep: each opened slot is one of a parked text, and the parked
texts are values of names that a rendering came upon, `Env.patternNames`.
-/

namespace Phrasebook.Icu

variable {env : Env} {kind : Kind} {n : Nat} {a b : List Char}

/-! ### Texts whose slots are whole -/

/-- The character that opens a slot begins one of the first `n` slots wherever it stands. -/
inductive Slotted (n : Nat) : List Char → Prop
  | nil : Slotted n []
  | char {c cs} (hc : c ≠ slotOpen) (h : Slotted n cs) : Slotted n (c :: cs)
  | slot {index cs} (hi : index < n) (h : Slotted n cs) : Slotted n (slot index ++ cs)

namespace Slotted

theorem of_notMem (h : slotOpen ∉ a) : Slotted n a := by
  induction a with
  | nil => exact .nil
  | cons c a ih =>
    simp only [List.mem_cons, not_or] at h
    exact .char (Ne.symm h.1) (ih h.2)

theorem of_slot {index : Nat} (hi : index < n) : Slotted n (Icu.slot index) := by
  have h : Slotted n (Icu.slot index ++ []) := .slot hi .nil
  rwa [List.append_nil] at h

theorem mono {m : Nat} (hn : n ≤ m) (h : Slotted n a) : Slotted m a := by
  induction h with
  | nil => exact .nil
  | char hc _ ih => exact .char hc ih
  | slot hi _ ih => exact .slot (Nat.lt_of_lt_of_le hi hn) ih

theorem append (ha : Slotted n a) (hb : Slotted n b) : Slotted n (a ++ b) := by
  induction ha with
  | nil => exact hb
  | char hc _ ih => exact .char hc ih
  | slot hi _ ih =>
    rw [List.append_assoc]
    exact .slot hi ih

theorem tail {c : Char} (hc : c ≠ slotOpen) (h : Slotted n (c :: a)) : Slotted n a := by
  generalize hcs : c :: a = cs at h
  cases h with
  | nil => exact absurd hcs (List.cons_ne_nil _ _)
  | char _ h =>
    obtain ⟨-, rfl⟩ := List.cons.inj hcs
    exact h
  | slot => exact absurd (List.cons.inj hcs).1 hc

theorem drop (ha : slotOpen ∉ a) (h : Slotted n (a ++ b)) : Slotted n b := by
  induction a with
  | nil => exact h
  | cons c a ih =>
    simp only [List.mem_cons, not_or] at ha
    exact ih ha.2 (h.tail (Ne.symm ha.1))

/-- A character that no slot has stands between two such texts. -/
theorem split {c : Char} (hc : ∀ index, c ∉ Icu.slot index) (h : Slotted n (a ++ c :: b)) :
    Slotted n a ∧ Slotted n b := by
  have hopen : c ≠ slotOpen := fun he => hc 0 (he ▸ List.mem_cons_self)
  generalize hcs : a ++ c :: b = cs at h
  induction h generalizing a with
  | nil => exact absurd hcs (by simp)
  | @char d cs hd h ih =>
    cases a with
    | nil =>
      obtain ⟨-, rfl⟩ := List.cons.inj hcs
      exact ⟨.nil, h⟩
    | cons e a =>
      obtain ⟨rfl, hrest⟩ := List.cons.inj hcs
      obtain ⟨ha, hb⟩ := ih hrest
      exact ⟨.char hd ha, hb⟩
  | @slot index cs hi h ih =>
    rcases List.append_eq_append_iff.1 hcs with ⟨more, hslot, hmore⟩ | ⟨a, rfl, hrest⟩
    · cases more with
      | nil =>
        rw [List.append_nil] at hslot
        obtain ⟨-, hb⟩ := ih (a := []) hmore
        exact ⟨hslot ▸ of_slot hi, hb⟩
      | cons d more =>
        obtain ⟨rfl, -⟩ := List.cons.inj hmore
        exact absurd (by simp [hslot]) (hc index)
    · obtain ⟨ha, hb⟩ := ih hrest.symm
      exact ⟨.slot hi ha, hb⟩

theorem fillHash {hash : List Char} (hh : slotOpen ∉ hash) (h : Slotted n a) :
    Slotted n (fillHash hash a) := by
  induction h with
  | nil => exact .nil
  | @char c cs hc _ ih =>
    rw [show c :: cs = [c] ++ cs from rfl, fillHash_append]
    refine append (of_notMem fun hmem => ?_) ih
    rcases mem_fillHash hmem with ⟨hmem, -⟩ | ⟨hmem, -⟩
    · exact hc (List.mem_singleton.1 hmem).symm
    · exact hh hmem
  | @slot index cs hi _ ih =>
    rw [fillHash_append, fillHash_of_notMem (hash_notMem_slot index)]
    exact .slot hi ih

end Slotted

theorem brace_notMem_slot (index : Nat) : '\x7b' ∉ slot index ∧ '\x7d' ∉ slot index :=
  ⟨fun h => (noBrace_slot index _ h).1 rfl, fun h => (noBrace_slot index _ h).2 rfl⟩

/-- A closing brace divides a text without dividing a slot. -/
theorem Slotted.around_close {cs options tail : List Char} (h : Slotted n cs)
    (hc : closing 0 cs = some (options, tail)) : Slotted n options ∧ Slotted n tail := by
  rw [closing_eq hc] at h
  exact h.split fun index => (brace_notMem_slot index).2

theorem Slotted.body_of_choose {v : Option Value} {options body : List Char}
    (hc : choose env kind v options = some (.body body)) (h : Slotted n options) :
    Slotted n body := by
  rcases Icu.body_of_choose hc with ⟨x, rfl⟩ | ⟨clause, hmem, hash, hhash, rfl⟩
  · exact .of_notMem (notMem_plainChars (by decide) x)
  · obtain ⟨front, after, rest, rfl, hclose⟩ := split_of_mem_clauses hmem
    have hafter := (h.split fun index => (brace_notMem_slot index).1).2
    exact (hafter.around_close hclose).1.fillHash (hhash.notMem (by decide) (by decide))

theorem slotOpen_notMem_head {name head after : List Char}
    (h : marker? kind (head ++ after) = some (name, head)) : slotOpen ∉ head := by
  obtain ⟨blanks, more, rest, -, hn, hb, hm, rfl, -⟩ := eq_append_of_marker? h
  have hblank : ∀ {cs : List Char}, cs.all Text.isBlank = true → slotOpen ∉ cs := fun h hmem =>
    absurd (List.all_eq_true.1 h _ hmem) (by decide)
  have hname : slotOpen ∉ name := fun hmem =>
    absurd (List.all_eq_true.1 hn _ hmem) (by decide +kernel)
  have hkeyword : slotOpen ∉ kind.keyword := by cases kind <;> decide
  simp only [List.mem_cons, List.mem_append, not_or]
  exact ⟨by decide, hname, by decide, hblank hb, hkeyword, by decide, hblank hm⟩

/-- So does the head of a pattern. -/
theorem Slotted.around_head {cs before name head after : List Char} (h : Slotted n cs)
    (hm : findMarker kind cs = some (before, name, head, after)) :
    Slotted n before ∧ Slotted n head ∧ Slotted n after := by
  obtain ⟨htext, hmarker⟩ := eq_append_of_findMarker hm
  have hhead : slotOpen ∉ head := slotOpen_notMem_head hmarker
  obtain ⟨_, _, _, -, -, -, -, hopen, -⟩ := eq_append_of_marker? hmarker
  rw [htext, hopen, List.append_assoc, List.cons_append] at h
  obtain ⟨hbefore, hrest⟩ := h.split fun index => (brace_notMem_slot index).1
  refine ⟨hbefore, .of_notMem hhead, hrest.drop fun hmem => hhead ?_⟩
  exact hopen ▸ List.mem_cons_of_mem _ hmem

/-! ### The names that sweeps come upon -/

/-- The names of the pattern heads that a sweep finds. -/
def namesWithin (env : Env) (kind : Kind) : Nat → Work → List (List Char)
  | 0, _ => []
  | fuel + 1, w =>
    match findMarker kind w.text with
    | none => []
    | some (_, name, _, after) =>
      name :: match replacement? env kind name after with
        | some (.body body, tail) => namesWithin env kind fuel { w with text := body ++ tail }
        | some (.text text, tail) => namesWithin env kind fuel ⟨tail, w.parked ++ [text]⟩
        | none => namesWithin env kind fuel { w with text := after }

/-- The names that sweeps for these kinds, one after the other, come upon. -/
def namesOver (env : Env) : List Kind → Work → List (List Char)
  | [], _ => []
  | kind :: kinds, w =>
    namesWithin env kind (w.text.count '\x7b') w ++ namesOver env kinds (resolve env kind w)

/-- The names that passes come upon. -/
def settleNames (env : Env) : Nat → Work → List (List Char)
  | 0, _ => []
  | n + 1, w =>
    let next := pass env w
    namesOver env passOrder w ++ if next.text = w.text then [] else settleNames env n next

/-- The names of the patterns in a template, and of those that its clauses make up when they take the
place of patterns. -/
def Env.patternNames (env : Env) (template : List Char) : List (List Char) :=
  settleNames env passLimit { text := template }

/-! ### What sweeps keep -/

/-- All slots are those of the parked texts, which all pass. -/
structure Work.Tidy (Q : List Char → Prop) (w : Work) : Prop where
  text : Slotted w.parked.length w.text
  parked : ∀ p ∈ w.parked, Q p

namespace Work.Tidy

variable {Q : List Char → Prop} {w : Work}

theorem behind (h : w.Tidy Q) {cs : List Char} (hcs : Slotted w.parked.length cs) :
    (w.behind cs).Tidy Q :=
  ⟨hcs.append h.text, h.parked⟩

/-- A text that a sweep parks belongs to a name that it came upon. -/
theorem resolveWithin {fuel : Nat}
    (hQ : ∀ name ∈ namesWithin env kind fuel w, ∀ s,
      (env.value? name).bind Value.display = some s → Q (showText env.escape s))
    (h : w.Tidy Q) :
    (resolveWithin env kind fuel w).Tidy Q ∧
      w.parked.length ≤ (resolveWithin env kind fuel w).parked.length := by
  induction fuel generalizing w with
  | zero => exact ⟨h, Nat.le_refl _⟩
  | succ fuel ih =>
    rw [Icu.resolveWithin]
    rw [namesWithin] at hQ
    cases hm : findMarker kind w.text with
    | none => exact ⟨h, Nat.le_refl _⟩
    | some found =>
      obtain ⟨before, name, head, after⟩ := found
      simp only [hm] at hQ
      obtain ⟨hname, hlater⟩ := List.forall_mem_cons.1 hQ
      obtain ⟨hbefore, hhead, hafter⟩ := h.text.around_head hm
      have step : ∀ {v : Work} {cs : List Char}, v.Tidy Q ∧ w.parked.length ≤ v.parked.length →
          Slotted v.parked.length cs →
            (v.behind cs).Tidy Q ∧ w.parked.length ≤ (v.behind cs).parked.length :=
        fun hv hcs => ⟨hv.1.behind hcs, hv.2⟩
      dsimp only
      cases hr : replacement? env kind name after with
      | none =>
        rw [hr] at hlater
        have hrest := ih hlater ⟨hafter, h.parked⟩
        exact step hrest ((hbefore.append hhead).mono hrest.2)
      | some found =>
        obtain ⟨r, tail⟩ := found
        obtain ⟨options, hclose, hr'⟩ := choose_of_replacement? hr
        obtain ⟨hoptions, htail⟩ := hafter.around_close hclose
        rw [hr] at hlater
        cases r with
        | body body =>
          have hrest := ih hlater ⟨(hoptions.body_of_choose hr').append htail, h.parked⟩
          exact step hrest (hbefore.mono hrest.2)
        | text text =>
          obtain ⟨s, hs, rfl⟩ := text_of_choose hr'
          have hparked : ∀ p ∈ w.parked ++ [showText env.escape s], Q p :=
            List.forall_mem_append.2 ⟨h.parked, List.forall_mem_singleton.2 (hname s hs)⟩
          have hmore : w.parked.length < (w.parked ++ [showText env.escape s]).length := by
            simp
          have hrest := ih hlater ⟨htail.mono (Nat.le_of_lt hmore), hparked⟩
          have hlt := Nat.lt_of_lt_of_le hmore hrest.2
          have hle := Nat.le_of_lt hlt
          exact step ⟨hrest.1, hle⟩ ((hbefore.mono hle).append (.of_slot hlt))

theorem resolveAll {kinds : List Kind}
    (hQ : ∀ name ∈ namesOver env kinds w, ∀ s,
      (env.value? name).bind Value.display = some s → Q (showText env.escape s))
    (h : w.Tidy Q) : (kinds.foldl (fun w kind => resolve env kind w) w).Tidy Q := by
  induction kinds generalizing w with
  | nil => exact h
  | cons kind kinds ih =>
    obtain ⟨hfirst, hlater⟩ := List.forall_mem_append.1 hQ
    exact ih hlater (h.resolveWithin hfirst).1

theorem settle {n : Nat}
    (hQ : ∀ name ∈ settleNames env n w, ∀ s,
      (env.value? name).bind Value.display = some s → Q (showText env.escape s))
    (h : w.Tidy Q) : (settle env n w).Tidy Q := by
  induction n generalizing w with
  | zero => exact h
  | succ n ih =>
    obtain ⟨hpass, hlater⟩ := List.forall_mem_append.1 hQ
    have hnext : (pass env w).Tidy Q := h.resolveAll hpass
    rw [Icu.settle]
    split
    · exact hnext
    · rename_i hne
      rw [if_neg hne] at hlater
      exact ih hlater hnext

end Work.Tidy

end Phrasebook.Icu
