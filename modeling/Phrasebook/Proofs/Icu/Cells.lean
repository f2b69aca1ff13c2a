import Mathlib.Logic.Relation
import Phrasebook.Proofs.Icu.Slots

/-!
# Parked texts keep their places

A text in work is read as cells: characters, and places that hold a parked text. `Unfolds` puts a
part of its own cells, a number or the place of a text where a pattern stood, and every sweep is a
run of such steps, `exists_unfolds_resolve`. So no step takes a slot apart or copies one, and
`parked_texts_in_place` says that each text returns in its place.
-/

namespace Phrasebook.Icu

variable {env : Env} {kind : Kind}

/-! ### Cells -/

/-- A character, or the place of a parked text. -/
inductive Cell where
  | char (c : Char)
  | held (index : Nat) (text : List Char)
  deriving DecidableEq, Repr

/-- What is written in a cell while the text is in work. -/
def Cell.source : Cell → List Char
  | .char c => [c]
  | .held index _ => slot index

/-- The index of the parked text that a cell holds. -/
def Cell.index? : Cell → Option Nat
  | .char _ => none
  | .held index _ => some index

/-- The text in work. -/
def spell (cells : List Cell) : List Char :=
  cells.flatMap Cell.source

/-- The text in cells of one character each. -/
def charCells (cs : List Char) : List Cell :=
  cs.map .char

/-- The indices of the parked texts from left to right. -/
def heldIndices (cells : List Cell) : List Nat :=
  cells.filterMap Cell.index?

/-- The cells with the number in place of each hash. -/
def fillCells (number : List Char) (cells : List Cell) : List Cell :=
  cells.flatMap fun cell => if cell = .char '#' then charCells number else [cell]

variable {cells front back : List Cell} {a b : List Char}

@[simp] theorem spell_nil : spell [] = [] := rfl

@[simp] theorem spell_cons (cell : Cell) (cells : List Cell) :
    spell (cell :: cells) = cell.source ++ spell cells := rfl

@[simp] theorem spell_append (front back : List Cell) :
    spell (front ++ back) = spell front ++ spell back := by
  simp [spell]

@[simp] theorem spell_charCells (cs : List Char) : spell (charCells cs) = cs := by
  induction cs with
  | nil => rfl
  | cons c cs ih => exact congrArg (c :: ·) ih

@[simp] theorem heldIndices_append (front back : List Cell) :
    heldIndices (front ++ back) = heldIndices front ++ heldIndices back :=
  List.filterMap_append

@[simp] theorem heldIndices_charCells (cs : List Char) : heldIndices (charCells cs) = [] := by
  simp [heldIndices, charCells, Cell.index?]

theorem mem_heldIndices {index : Nat} (h : index ∈ heldIndices cells) :
    ∃ text, .held index text ∈ cells := by
  obtain ⟨cell, hcell, hindex⟩ := List.mem_filterMap.1 h
  cases cell with
  | char c => exact absurd hindex (by simp [Cell.index?])
  | held i text =>
    obtain rfl := Option.some.inj hindex
    exact ⟨text, hcell⟩

theorem fillCells_cons (number : List Char) (cell : Cell) (cells : List Cell) :
    fillCells number (cell :: cells) =
      (if cell = .char '#' then charCells number else [cell]) ++ fillCells number cells := rfl

theorem spell_fillCells (number : List Char) (cells : List Cell) :
    spell (fillCells number cells) = fillHash number (spell cells) := by
  induction cells with
  | nil => rfl
  | cons cell cells ih =>
    rw [fillCells_cons, spell_append, ih, spell_cons, fillHash_append]
    congr 1
    cases cell with
    | char c => by_cases hc : c = '#' <;> simp [fillHash, Cell.source, hc]
    | held index text =>
      simp [Cell.source, fillHash_of_notMem (hash_notMem_slot index)]

theorem heldIndices_fillCells (number : List Char) (cells : List Cell) :
    heldIndices (fillCells number cells) = heldIndices cells := by
  induction cells with
  | nil => rfl
  | cons cell cells ih =>
    rw [fillCells_cons, heldIndices_append, ih]
    by_cases hcell : cell = .char '#'
    · rw [if_pos hcell, heldIndices_charCells, hcell]
      rfl
    · rw [if_neg hcell, ← heldIndices_append]
      rfl

theorem mem_fillCells {number : List Char} {cell : Cell} (h : cell ∈ fillCells number cells) :
    cell ∈ cells ∨ .char '#' ∈ cells ∧ ∃ c ∈ number, cell = .char c := by
  obtain ⟨d, hd, hcell⟩ := List.mem_flatMap.1 h
  split at hcell
  · rename_i he
    obtain ⟨c, hc, rfl⟩ := List.mem_map.1 hcell
    exact .inr ⟨he ▸ hd, c, hc, rfl⟩
  · rw [List.mem_singleton.1 hcell]
    exact .inl hd

/-! ### Cells of a part of the text -/

/-- A character that no slot has is a cell of its own. -/
theorem exists_char_cell {c : Char} (hc : ∀ index, c ∉ slot index)
    (h : spell cells = a ++ c :: b) :
    ∃ front back, cells = front ++ .char c :: back ∧ spell front = a ∧ spell back = b := by
  induction cells generalizing a with
  | nil => exact absurd h.symm (by simp)
  | cons cell cells ih =>
    have later : ∀ more, a = cell.source ++ more → spell cells = more ++ c :: b →
        ∃ front back, cell :: cells = front ++ .char c :: back ∧ spell front = a ∧
          spell back = b := by
      rintro more rfl hmore
      obtain ⟨front, back, rfl, rfl, rfl⟩ := ih hmore
      exact ⟨cell :: front, back, rfl, rfl, rfl⟩
    rw [spell_cons] at h
    rcases List.append_eq_append_iff.1 h with ⟨more, ha, hmore⟩ | ⟨more, hsource, hmore⟩
    · exact later more ha hmore
    · cases more with
      | nil => exact later [] (by simpa using hsource.symm) hmore.symm
      | cons d more =>
        obtain ⟨rfl, rfl⟩ := List.cons.inj hmore
        cases cell with
        | held index text =>
          have hslot : slot index = a ++ c :: more := hsource
          exact absurd (by simp [hslot]) (hc index)
        | char d =>
          cases a with
          | nil =>
            obtain ⟨rfl, rfl⟩ := List.cons.inj hsource
            exact ⟨[], cells, rfl, rfl, rfl⟩
          | cons e a => simp [Cell.source] at hsource

/-- A text without slots has a cell for each character. -/
theorem exists_char_cells (ha : slotOpen ∉ a) (h : spell cells = a ++ b) :
    ∃ back, cells = charCells a ++ back ∧ spell back = b := by
  induction a generalizing cells with
  | nil => exact ⟨cells, rfl, h⟩
  | cons c a ih =>
    simp only [List.mem_cons, not_or] at ha
    cases cells with
    | nil => exact absurd h.symm (by simp)
    | cons cell cells =>
      cases cell with
      | held index text => exact absurd (List.cons.inj h).1 ha.1
      | char d =>
        obtain ⟨rfl, hrest⟩ := List.cons.inj h
        obtain ⟨back, rfl, hback⟩ := ih ha.2 hrest
        exact ⟨back, rfl, hback⟩

/-- A head has a cell for each character. -/
theorem exists_head_cells {before name head after : List Char}
    (hm : findMarker kind (spell cells) = some (before, name, head, after)) :
    ∃ front back, cells = front ++ (charCells head ++ back) ∧ spell front = before ∧
      spell back = after := by
  obtain ⟨htext, hmarker⟩ := eq_append_of_findMarker hm
  have hhead := slotOpen_notMem_head hmarker
  obtain ⟨_, _, _, -, -, -, -, hopen, -⟩ := eq_append_of_marker? hmarker
  rw [hopen, List.append_assoc, List.cons_append] at htext
  obtain ⟨front, rest, rfl, hfront, hrest⟩ :=
    exists_char_cell (fun index => (brace_notMem_slot index).1) htext
  rw [hopen, List.mem_cons, not_or] at hhead
  obtain ⟨back, rfl, hback⟩ := exists_char_cells hhead.2 hrest
  exact ⟨front, back, by rw [hopen]; rfl, hfront, hback⟩

/-- A closing brace has a cell of its own. -/
theorem exists_close_cell {options tail : List Char}
    (hc : closing 0 (spell cells) = some (options, tail)) :
    ∃ front back, cells = front ++ .char '\x7d' :: back ∧ spell front = options ∧
      spell back = tail :=
  exists_char_cell (fun index => (brace_notMem_slot index).2) (closing_eq hc)

/-! ### What takes the place of a pattern -/

/-- The text is one pattern from its first character to its last, and `r` stands in its place. -/
def Stands (env : Env) (kind : Kind) (cs : List Char) (r : Replacement) : Prop :=
  ∃ name head, marker? kind cs = some (name, head) ∧
    replacement? env kind name (cs.drop head.length) = some (r, [])

/-- The cells that are read again in the place of a pattern: a number, or a part of its own with the
hashes filled. -/
inductive Cut (pattern : List Cell) : List Cell → Prop
  | number (x : Binary64) : Cut pattern (charCells (plainChars x))
  | part {hash chosen} (hh : IsNumber hash) (hc : chosen <:+: pattern) :
      Cut pattern (fillCells hash chosen)

theorem Cut.mono {part pattern body : List Cell} (hp : part <:+: pattern) (h : Cut part body) :
    Cut pattern body := by
  cases h with
  | number x => exact .number x
  | part hh hc => exact .part hh (hc.trans hp)

theorem Cut.mem {pattern body : List Cell} (h : Cut pattern body) {cell : Cell}
    (hc : cell ∈ body) : cell ∈ pattern ∨ ∃ c, isPlainNumberChar c = true ∧ cell = .char c := by
  cases h with
  | number x =>
    obtain ⟨d, hd, rfl⟩ := List.mem_map.1 hc
    exact .inr ⟨d, isPlainNumberChar_of_mem_plainChars hd, rfl⟩
  | part hh hp =>
    rcases mem_fillCells hc with hc | ⟨hhash, d, hd, rfl⟩
    · exact .inl (hp.subset hc)
    · rcases hh with rfl | ⟨x, rfl⟩
      · exact .inl (hp.subset (List.mem_singleton.1 hd ▸ hhash))
      · exact .inr ⟨d, isPlainNumberChar_of_mem_plainChars hd, rfl⟩

theorem Cut.heldIndices_sublist {pattern body : List Cell} (h : Cut pattern body) :
    (heldIndices body).Sublist (heldIndices pattern) := by
  cases h with
  | number x =>
    rw [heldIndices_charCells]
    exact List.nil_sublist _
  | part hh hp =>
    rw [heldIndices_fillCells]
    exact hp.sublist.filterMap _

theorem exists_cut {v : Option Value} {options : List Cell} {body : List Char}
    (h : choose env kind v (spell options) = some (.body body)) :
    ∃ cells, spell cells = body ∧ Cut options cells := by
  rcases body_of_choose h with ⟨x, rfl⟩ | ⟨clause, hmem, hash, hhash, rfl⟩
  · exact ⟨_, spell_charCells _, .number x⟩
  · obtain ⟨before, after, rest, htext, hclose⟩ := split_of_mem_clauses hmem
    obtain ⟨front, back, rfl, -, rfl⟩ :=
      exists_char_cell (fun index => (brace_notMem_slot index).1) htext
    obtain ⟨chosen, more, rfl, hchosen, -⟩ := exists_close_cell hclose
    refine ⟨fillCells hash chosen, by rw [spell_fillCells, hchosen], .part hhash ?_⟩
    exact ⟨front ++ [.char '\x7b'], .char '\x7d' :: more, by simp⟩

/-- Cells and the parked texts. -/
structure Sheet where
  cells : List Cell
  parked : List (List Char)

/-- The text in work that a sheet spells. -/
def Sheet.work (s : Sheet) : Work :=
  ⟨spell s.cells, s.parked⟩

theorem Sheet.work_charCells (cs : List Char) (parked : List (List Char)) :
    (⟨charCells cs, parked⟩ : Sheet).work = ⟨cs, parked⟩ := by
  rw [work, spell_charCells]

/-- What stands in place of a pattern takes its place. -/
inductive Unfolds (env : Env) : Sheet → Sheet → Prop
  | body {kind front pattern body back parked}
      (hs : Stands env kind (spell pattern) (.body (spell body))) (hc : Cut pattern body) :
      Unfolds env ⟨front ++ pattern ++ back, parked⟩ ⟨front ++ body ++ back, parked⟩
  | text {kind front pattern text back parked}
      (hs : Stands env kind (spell pattern) (.text text)) :
      Unfolds env ⟨front ++ pattern ++ back, parked⟩
        ⟨front ++ .held parked.length text :: back, parked ++ [text]⟩

/-- The cells of a pattern, from its head to its closing brace. -/
theorem exists_pattern_cells {name head tail : List Char} {r : Replacement}
    (hm : marker? kind (head ++ spell back) = some (name, head))
    (hr : replacement? env kind name (spell back) = some (r, tail)) :
    ∃ options rest, back = options ++ .char '\x7d' :: rest ∧ spell rest = tail ∧
      choose env kind (env.value? name) (spell options) = some r ∧
      Stands env kind (spell (charCells head ++ options ++ [.char '\x7d'])) r := by
  obtain ⟨_, hclose, hchoose⟩ := choose_of_replacement? hr
  obtain ⟨options, rest, rfl, rfl, rfl⟩ := exists_close_cell hclose
  obtain ⟨blanks, more, _, -, -, -, -, hopen, -⟩ := eq_append_of_marker? hm
  have htext : spell (charCells head ++ options ++ [.char '\x7d']) =
      head ++ (spell options ++ '\x7d' :: []) := by
    simp [Cell.source]
  have hmarker : ∀ after, marker? kind (head ++ (spell options ++ '\x7d' :: after)) =
      marker? kind (head ++ spell options) := by
    intro after
    rw [hopen, List.cons_append, List.cons_append, ← List.append_assoc]
    exact marker?_append_close _ after
  refine ⟨options, rest, rfl, rfl, hchoose, name, head, ?_, ?_⟩
  · rw [htext, hmarker, ← hmarker (spell rest)]
    simpa [Cell.source] using hm
  · rw [htext, List.drop_left, replacement?_of_closing ((balanced_of_closing hclose).closing_eq []),
      hchoose]
    rfl

/-! ### A sweep is a run of such steps -/

/-- Up to where a sweep goes on, its cells come about in steps. -/
theorem unfolds_cases (env : Env) (kind : Kind) (cells : List Cell) (parked : List (List Char)) :
    resolve env kind ⟨spell cells, parked⟩ = ⟨spell cells, parked⟩ ∨
      ∃ front back parked',
        (∀ before, Relation.ReflTransGen (Unfolds env) ⟨before ++ cells, parked⟩
          ⟨before ++ front ++ back, parked'⟩) ∧
        (spell back).count '\x7b' < (spell cells).count '\x7b' ∧
        resolve env kind ⟨spell cells, parked⟩ =
          (resolve env kind ⟨spell back, parked'⟩).behind (spell front) := by
  rw [resolve_eq]
  dsimp only
  cases hm : findMarker kind (spell cells) with
  | none => exact .inl rfl
  | some found =>
    obtain ⟨_, name, head, _⟩ := found
    have hlt := count_after hm
    obtain ⟨front, back, rfl, rfl, rfl⟩ := exists_head_cells hm
    obtain ⟨-, hmarker⟩ := eq_append_of_findMarker hm
    refine .inr ?_
    dsimp only
    cases hr : replacement? env kind name (spell back) with
    | none =>
      refine ⟨front ++ charCells head, back, parked, fun before => ?_, hlt, by simp⟩
      simpa using Relation.ReflTransGen.refl
    | some found =>
      obtain ⟨r, tail⟩ := found
      obtain ⟨options, rest, rfl, rfl, hchoose, hstands⟩ := exists_pattern_cells hmarker hr
      let pattern := charCells head ++ options ++ [.char '\x7d']
      have hcells : ∀ before,
          before ++ (front ++ (charCells head ++ (options ++ .char '\x7d' :: rest))) =
            before ++ front ++ pattern ++ rest := by
        simp [pattern]
      cases r with
      | body body =>
        have hle := count_replacement? hr
        obtain ⟨cut, rfl, hcut⟩ := exists_cut hchoose
        have hpart : options <:+: pattern := ⟨_, _, rfl⟩
        refine ⟨front, cut ++ rest, parked, fun before => ?_, ?_, by simp⟩
        · rw [hcells, ← List.append_assoc (before ++ front) cut]
          exact .single (.body hstands (hcut.mono hpart))
        · rw [spell_append]
          omega
      | text text =>
        have hle := count_replacement?_text hr
        refine ⟨front ++ [.held parked.length text], rest, parked ++ [text], fun before => ?_, ?_,
          by simp [Cell.source]⟩
        · have hstep : Unfolds env ⟨before ++ front ++ pattern ++ rest, parked⟩
              ⟨before ++ front ++ .held parked.length text :: rest, parked ++ [text]⟩ :=
            .text hstands
          rw [hcells]
          simpa using Relation.ReflTransGen.single hstep
        · omega

/-- A sweep over the cells behind `front`. -/
theorem exists_unfolds_behind (env : Env) (kind : Kind) (front back : List Cell)
    (parked : List (List Char)) :
    ∃ s, Relation.ReflTransGen (Unfolds env) ⟨front ++ back, parked⟩ s ∧
      s.work = (resolve env kind ⟨spell back, parked⟩).behind (spell front) := by
  induction hn : (spell back).count '\x7b' using Nat.strongRecOn generalizing front back parked with
  | ind n ih =>
    subst hn
    rcases unfolds_cases env kind back parked with hresolve |
      ⟨done, rest, parked', hrun, hlt, hresolve⟩
    · exact ⟨_, .refl, by rw [hresolve]; simp [Sheet.work, Work.behind]⟩
    · obtain ⟨s, hs, hwork⟩ := ih _ hlt (front ++ done) rest parked' rfl
      refine ⟨s, (hrun front).trans hs, ?_⟩
      rw [hwork, hresolve, spell_append, behind_behind]

theorem exists_unfolds_resolve (env : Env) (kind : Kind) (s : Sheet) :
    ∃ t, Relation.ReflTransGen (Unfolds env) s t ∧ t.work = resolve env kind s.work :=
  exists_unfolds_behind env kind [] s.cells s.parked

theorem exists_unfolds_kinds (env : Env) (kinds : List Kind) (s : Sheet) :
    ∃ t, Relation.ReflTransGen (Unfolds env) s t ∧
      t.work = kinds.foldl (fun w kind => resolve env kind w) s.work := by
  induction kinds generalizing s with
  | nil => exact ⟨s, .refl, rfl⟩
  | cons kind kinds ih =>
    obtain ⟨t, ht, hwork⟩ := exists_unfolds_resolve env kind s
    obtain ⟨u, hu, hwork'⟩ := ih t
    exact ⟨u, ht.trans hu, by rw [hwork', hwork, List.foldl_cons]⟩

/-- All passes together. -/
theorem exists_unfolds_settle (env : Env) (n : Nat) (s : Sheet) :
    ∃ t, Relation.ReflTransGen (Unfolds env) s t ∧ t.work = settle env n s.work := by
  induction n generalizing s with
  | zero => exact ⟨s, .refl, rfl⟩
  | succ n ih =>
    obtain ⟨t, ht, hwork⟩ := exists_unfolds_kinds env passOrder s
    have hpass : t.work = pass env s.work := hwork
    rw [settle, ← hpass]
    split
    · exact ⟨t, ht, rfl⟩
    · obtain ⟨u, hu, hwork'⟩ := ih t
      exact ⟨u, ht.trans hu, hwork'⟩

/-! ### What a step keeps -/

section Step

variable {s t : Sheet}

theorem shown_of_stands {cs text : List Char} (h : Stands env kind cs (.text text)) :
    ∃ name, env.shown? name = some text := by
  obtain ⟨name, head, -, hr⟩ := h
  obtain ⟨options, -, hchoose⟩ := choose_of_replacement? hr
  obtain ⟨shown, hs, rfl⟩ := text_of_choose hchoose
  exact ⟨name, congrArg (Option.map _) hs⟩

/-- A step parks a text that a value is shown as, or none. -/
theorem Unfolds.parked (h : Unfolds env s t) :
    ∃ more, t.parked = s.parked ++ more ∧ ∀ text ∈ more, ∃ name, env.shown? name = some text := by
  cases h with
  | body hs hc => exact ⟨[], (List.append_nil _).symm, by simp⟩
  | text hs => exact ⟨_, rfl, List.forall_mem_singleton.2 (shown_of_stands hs)⟩

/-- A step writes nothing but characters of numbers and the place of the text that it parks. -/
theorem Unfolds.mem (h : Unfolds env s t) {cell : Cell} (hc : cell ∈ t.cells) :
    cell ∈ s.cells ∨ (∃ c, isPlainNumberChar c = true ∧ cell = .char c) ∨
      ∃ text, t.parked = s.parked ++ [text] ∧ cell = .held s.parked.length text := by
  cases h with
  | body hs hcut =>
    simp only [List.mem_append] at hc ⊢
    rcases hc with (hc | hc) | hc
    · exact .inl (.inl (.inl hc))
    · exact (hcut.mem hc).imp (fun hp => .inl (.inr hp)) .inl
    · exact .inl (.inr hc)
  | text hs =>
    simp only [List.mem_append, List.mem_cons] at hc ⊢
    rcases hc with hc | rfl | hc
    · exact .inl (.inl (.inl hc))
    · exact .inr (.inr ⟨_, rfl, rfl⟩)
    · exact .inl (.inr hc)

/-- A step copies no place. -/
theorem Unfolds.nodup (h : Unfolds env s t) (hs : (heldIndices s.cells).Nodup)
    (hlt : ∀ index ∈ heldIndices s.cells, index < s.parked.length) :
    (heldIndices t.cells).Nodup := by
  cases h with
  | body _ hc =>
    refine List.Nodup.sublist ?_ hs
    simp only [heldIndices_append]
    exact ((List.Sublist.refl _).append hc.heldIndices_sublist).append (.refl _)
  | @text kind front pattern text back parked =>
    have hrest : (heldIndices (front ++ back)).Sublist
        (heldIndices (front ++ pattern ++ back)) := by
      simp only [heldIndices_append]
      exact (List.sublist_append_left _ _).append (.refl _)
    have hnew : parked.length ∉ heldIndices (front ++ back) := fun hmem =>
      Nat.lt_irrefl _ (hlt _ (hrest.subset hmem))
    rw [heldIndices_append] at hrest hnew ⊢
    exact List.perm_middle.nodup_iff.2 (List.nodup_cons.2 ⟨hnew, hrest.nodup hs⟩)

end Step

/-- Neither character of a slot is in the text. -/
def Markless (cs : List Char) : Prop :=
  ∀ c ∈ cs, c ≠ slotOpen ∧ c ≠ slotClose

-- not by instance search, which may also find that there are finitely many characters
instance (cs : List Char) : Decidable (Markless cs) :=
  List.decidableBAll (fun c => c ≠ slotOpen ∧ c ≠ slotClose) cs

theorem Markless.nil : Markless [] :=
  fun _ hc => absurd hc List.not_mem_nil

theorem Markless.append (ha : Markless a) (hb : Markless b) : Markless (a ++ b) :=
  fun c hc => (List.mem_append.1 hc).elim (ha c) (hb c)

theorem Markless.concat (ha : Markless a) {c : Char} (hc : c ≠ slotOpen ∧ c ≠ slotClose) :
    Markless (a ++ [c]) :=
  ha.append fun _ hd => List.mem_singleton.1 hd ▸ hc

theorem Markless.notMem (h : Markless a) : slotOpen ∉ a :=
  fun hmem => (h _ hmem).1 rfl

theorem ne_marks_of_isPlainNumberChar {c : Char} (h : isPlainNumberChar c = true) :
    c ≠ slotOpen ∧ c ≠ slotClose := by
  constructor <;> rintro rfl <;> exact absurd h (by decide)

/-- A character that no slot begins or ends with, or the place of one of the parked texts. -/
def Cell.Sound (parked : List (List Char)) : Cell → Prop
  | .char c => c ≠ slotOpen ∧ c ≠ slotClose
  | .held index text => parked[index]? = some text

theorem Cell.Sound.append {parked : List (List Char)} {cell : Cell} (h : cell.Sound parked)
    (more : List (List Char)) : cell.Sound (parked ++ more) := by
  cases cell with
  | char c => exact h
  | held index text =>
    have hget : parked[index]? = some text := h
    exact (List.getElem?_append_left (List.getElem?_eq_some_iff.1 hget).1).trans hget

/-- No parked text has two places, and what is parked is what values are shown as. -/
structure Sheet.Sound (env : Env) (s : Sheet) : Prop where
  cells : ∀ cell ∈ s.cells, cell.Sound s.parked
  once : (heldIndices s.cells).Nodup
  shown : ∀ text ∈ s.parked, ∃ name, env.shown? name = some text

namespace Sheet.Sound

variable {s t : Sheet}

theorem start {template : List Char} (h : Markless template) :
    Sound env ⟨charCells template, []⟩ where
  cells cell hcell := by
    obtain ⟨c, hc, rfl⟩ := List.mem_map.1 hcell
    exact h c hc
  once := by simp
  shown text hc := absurd hc List.not_mem_nil

theorem index_lt (h : s.Sound env) {index : Nat} (hi : index ∈ heldIndices s.cells) :
    index < s.parked.length := by
  obtain ⟨text, hcell⟩ := mem_heldIndices hi
  exact (List.getElem?_eq_some_iff.1 (h.cells _ hcell)).1

theorem step (h : s.Sound env) (hs : Unfolds env s t) : t.Sound env := by
  obtain ⟨more, hparked, hmore⟩ := hs.parked
  refine ⟨fun cell hcell => ?_, hs.nodup h.once fun _ => h.index_lt, ?_⟩
  · rcases hs.mem hcell with hcell | ⟨c, hnumber, rfl⟩ | ⟨text, hnew, rfl⟩
    · exact hparked ▸ (h.cells cell hcell).append more
    · exact ne_marks_of_isPlainNumberChar hnumber
    · rw [hnew]
      exact List.getElem?_concat_length
  · rw [hparked]
    exact List.forall_mem_append.2 ⟨h.shown, hmore⟩

theorem run (h : s.Sound env) (hs : Relation.ReflTransGen (Unfolds env) s t) : t.Sound env := by
  induction hs with
  | refl => exact h
  | tail _ hstep ih => exact ih.step hstep

end Sheet.Sound

/-! ### What is rendered from cells -/

/-- What is rendered from cells behind the characters of `run`: each run of characters with its
placeholders filled, and between them the parked texts. -/
def written (env : Env) : List Char → List Cell → List Char
  | run, [] => fillVariables env run
  | run, .char c :: cells => written env (run ++ [c]) cells
  | run, .held _ text :: cells => fillVariables env run ++ text ++ written env [] cells

/-- No value has a text with a character of a slot. -/
def Env.Markless (env : Env) : Prop :=
  ∀ name text, (env.value? name).bind Value.display = some text → Icu.Markless text.toList

theorem Env.markless_of_vars
    (h : ∀ e ∈ env.vars, ∀ text ∈ e.2.display, Icu.Markless text.toList) : env.Markless := by
  intro name text ht
  obtain ⟨v, hv, hdisplay⟩ := Option.bind_eq_some_iff.1 ht
  exact h _ (Dictionary.mem_of_find? hv) text hdisplay

theorem Env.Markless.shown (hv : env.Markless) {name text : List Char}
    (h : env.shown? name = some text) : Icu.Markless text := by
  obtain ⟨s, hs, rfl⟩ := Option.map_eq_some_iff.1 h
  have hnone := hv name s hs
  intro c hc
  constructor <;> rintro rfl
  · exact notMem_showText (by decide) (fun hmem => (hnone _ hmem).1 rfl) env.escape hc
  · exact notMem_showText (by decide) (fun hmem => (hnone _ hmem).2 rfl) env.escape hc

theorem Markless.fillVariables (hv : env.Markless) (h : Markless a) :
    Markless (fillVariables env a) := by
  intro c hc
  rcases Text.mem_replaceTokens hc with hc | ⟨name, text, ht, hc⟩
  · exact h c hc
  · exact hv.shown ht c hc

/-- No placeholder reaches over the character that opens a slot. -/
theorem fillVariables_slot (a : List Char) (index : Nat) (b : List Char) :
    fillVariables env (a ++ (slot index ++ b)) =
      fillVariables env a ++ (slot index ++ fillVariables env b) := by
  have hword : Text.isWord slotOpen = false := by decide +kernel
  have hstop : ∀ rest, fillVariables env (a ++ slotOpen :: rest) =
      fillVariables env a ++ slotOpen :: fillVariables env rest := by
    refine Text.replaceTokens_append_stop (simple?_of_ne (by decide)) ?_ ?_ a
    · intro d cs rest
      by_cases hd : d = '\x7b'
      · subst hd
        rw [simple?, simple?, drop_length_takeWhile, drop_length_takeWhile,
          takeWhile_append_stop hword, dropWhile_append_stop hword]
        cases cs.takeWhile Text.isWord with
        | nil => rfl
        | cons e es =>
          cases cs.dropWhile Text.isWord with
          | nil => rfl
          | cons f fs => by_cases hf : f = '\x7d' <;> simp [hf]
      · rw [simple?_of_ne hd, simple?_of_ne hd]
    · intro cs name n h
      obtain ⟨rest, rfl, rfl, -⟩ := simple?_eq_some h
      exact ⟨(Part.placeholder name).print, rest, by simp [Part.print], by simp [Part.print],
        List.cons_ne_nil _ _⟩
  have hopen : slot index = slotOpen :: (slot index).tail := rfl
  have hinner : '\x7b' ∉ (slot index).tail := fun hmem =>
    (brace_notMem_slot index).1 (List.mem_of_mem_tail hmem)
  rw [hopen, List.cons_append, hstop, fillVariables_append hinner, List.cons_append]

theorem restore_spell {parked : List (List Char)} (hv : env.Markless)
    (h : ∀ cell ∈ cells, cell.Sound parked) (ha : Markless a) :
    restore parked (fillVariables env (a ++ spell cells)) = written env a cells := by
  induction cells generalizing a with
  | nil =>
    rw [spell_nil, List.append_nil, written]
    exact restore_eq_self (ha.fillVariables hv).notMem
  | cons cell cells ih =>
    obtain ⟨hcell, hcells⟩ := List.forall_mem_cons.1 h
    cases cell with
    | char c =>
      rw [written, ← ih hcells (ha.concat hcell), List.append_assoc]
      rfl
    | held index text =>
      have hget : parked[index]? = some text := hcell
      rw [spell_cons, Cell.source, fillVariables_slot,
        restore_append (ha.fillVariables hv).notMem, restore_slot hget, written, List.append_assoc,
        ← ih hcells .nil, List.nil_append]

theorem markless_written {parked : List (List Char)} (hv : env.Markless)
    (hp : ∀ text ∈ parked, Markless text) (h : ∀ cell ∈ cells, cell.Sound parked)
    (ha : Markless a) : Markless (written env a cells) := by
  induction cells generalizing a with
  | nil => exact ha.fillVariables hv
  | cons cell cells ih =>
    obtain ⟨hcell, hcells⟩ := List.forall_mem_cons.1 h
    cases cell with
    | char c => exact ih hcells (ha.concat hcell)
    | held index text =>
      have htext : Markless text := hp text (List.mem_of_getElem? hcell)
      exact ((ha.fillVariables hv).append htext).append (ih hcells .nil)

/-- Where neither the template nor a text of a value has a character of a slot, steps that copy no
place lead from the template to what is rendered. It has no character of a slot, and each parked text
that still has a place is written there and nowhere else. -/
theorem parked_texts_in_place (env : Env) (template : String) (ht : Markless template.toList)
    (hv : env.Markless) :
    Markless (render env template).toList ∧
    ∃ s : Sheet, Relation.ReflTransGen (Unfolds env) ⟨charCells template.toList, []⟩ s ∧
      s.work = settle env passLimit ⟨template.toList, []⟩ ∧ s.Sound env ∧
      (render env template).toList = written env [] s.cells := by
  obtain ⟨s, hs, hwork⟩ := exists_unfolds_settle env passLimit ⟨charCells template.toList, []⟩
  rw [Sheet.work_charCells] at hwork
  have hsound : s.Sound env := (Sheet.Sound.start ht).run hs
  have hrender : (render env template).toList = written env [] s.cells := by
    rw [render, String.toList_ofList, renderChars, ← hwork]
    exact restore_spell hv hsound.cells .nil
  have hparked : ∀ text ∈ s.parked, Markless text := by
    intro text htext
    obtain ⟨name, hshown⟩ := hsound.shown text htext
    exact hv.shown hshown
  exact ⟨hrender ▸ markless_written hv hparked hsound.cells .nil, s, hs, hwork, hsound, hrender⟩

/-- A number, and a text that looks like a placeholder. -/
def hashEnv : Env where
  locale := "en"
  escape := false
  vars := [("n", .int 3), ("name", .str "Ann"), ("x", .str "\x7bname\x7d#")]

theorem hashEnv_markless : hashEnv.Markless :=
  Env.markless_of_vars (by decide +kernel)

/-- Selects in a clause that is chosen, in a pattern that is left, in a clause that is not chosen,
and one without an end. -/
def hashTemplate : String :=
  "\x7bn, plural, other \x7b# \x7bx, select, q \x7bno\x7d\x7d of \x7bname\x7d\x7d\x7d, " ++
    "\x7by, plural, one \x7b\x7bx, select, z \x7b\x7d\x7d\x7d\x7d, " ++
    "\x7bn, selectordinal, =9 \x7b\x7bx, select,\x7d\x7d other \x7bgone\x7d\x7d " ++
    "\x7bx, select, other \x7b"

/-- Two of the three parked texts still have a place, and neither is read again there. -/
theorem hashTemplate_in_place :
    Markless hashTemplate.toList ∧ hashEnv.Markless ∧
      render hashEnv hashTemplate =
        "3 \x7bname\x7d# of Ann, \x7by, plural, one \x7b\x7bname\x7d#\x7d\x7d, gone " ++
          "\x7bx, select, other \x7b" ∧
      ∃ s : Sheet, Relation.ReflTransGen (Unfolds hashEnv)
          ⟨charCells hashTemplate.toList, []⟩ s ∧
        s.work = settle hashEnv passLimit ⟨hashTemplate.toList, []⟩ ∧ s.Sound hashEnv ∧
        (render hashEnv hashTemplate).toList = written hashEnv [] s.cells := by
  have ht : Markless hashTemplate.toList := by decide +kernel
  obtain ⟨-, hplaces⟩ := parked_texts_in_place hashEnv hashTemplate ht hashEnv_markless
  exact ⟨ht, hashEnv_markless, by decide +kernel, hplaces⟩

end Phrasebook.Icu
