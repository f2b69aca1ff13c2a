import Phrasebook.Proofs.Icu.Hashes
import Phrasebook.Proofs.Icu.Starts

/-!
# Messages between two sweeps

`Message.Formed` describes a message while its patterns are replaced: some texts are parked, and only
patterns of the `kinds` are left. `sound_of_wellFormed` is where a rendering begins; the other
lemmas say what the text of such a message looks like to a sweep.
-/

namespace Phrasebook.Icu

theorem print_append (a b : Message) :
    Message.print (a ++ b) = Message.print a ++ Message.print b := by
  induction a with
  | nil => rfl
  | cons p a ih => rw [List.cons_append, Message.print, Message.print, ih, List.append_assoc]

/-- Whether the text of a message starts with a brace that no sweep takes away. -/
def Message.guarded : Message → Bool
  | .placeholder _ :: _ => true
  | .token _ _ :: _ => true
  | _ => false

theorem guarded_append {a : Message} (h : a.guarded = true) (b : Message) :
    Message.guarded (a ++ b) = true := by
  match a with
  | .placeholder _ :: _ => rfl
  | .token _ _ :: _ => rfl

/-- A message, inside a clause if `nested`, whose slots stand for `parked` texts. If it is `covered`,
each select has a clause for the rest, so that nothing will be parked. -/
inductive Message.Formed (env : Env) (covered : Bool) (parked : List (List Char))
    (kinds : List Kind) : Bool → Message → Prop
  | nil {nested} : Formed env covered parked kinds nested []
  | literal {nested cs m} (hb : NoBrace cs) (hu : nested = true → Unmarked m.guarded cs)
      (hs : covered = false → slotOpen ∉ cs) (hm : Formed env covered parked kinds nested m) :
      Formed env covered parked kinds nested (.literal cs :: m)
  | placeholder {nested name m} (hn : isName name = true)
      (hm : Formed env covered parked kinds nested m) :
      Formed env covered parked kinds nested (.placeholder name :: m)
  | token {nested name format m} (hn : isName name = true)
      (hf : ∀ c ∈ format, isFormatChar c = true) (hs : covered = false → slotOpen ∉ format)
      (hm : Formed env covered parked kinds nested m) :
      Formed env covered parked kinds nested (.token name format :: m)
  | slot {nested index text m} (hp : parked[index]? = some text)
      (hm : Formed env covered parked kinds nested m) :
      Formed env covered parked kinds nested (.slot index text :: m)
  | pattern {nested kind name arms m} (hk : kind ∈ kinds) (hn : isName name = true)
      (hv : env.serves kind name = true) (hs : ∀ s ∈ arms.map Prod.fst, isSelector s = true)
      (hc : covered = true → kind = .select → Category.other.keyword.toList ∈ arms.map Prod.fst)
      (ha : ∀ a ∈ arms, Formed env covered parked kinds true a.2)
      (hm : Formed env covered parked kinds nested m) :
      Formed env covered parked kinds nested (.pattern kind name arms :: m)

variable {env : Env} {covered : Bool} {parked : List (List Char)} {kinds : List Kind}

theorem getElem?_park {index : Nat} {text : List Char} (h : parked[index]? = some text)
    (more : List (List Char)) : (parked ++ more)[index]? = some text := by
  obtain ⟨hlt, -⟩ := List.getElem?_eq_some_iff.1 h
  rw [List.getElem?_append_left hlt]
  exact h

namespace Message.Formed

variable {nested : Bool}

theorem append {a b : Message} (ha : Formed env covered parked kinds nested a)
    (hb : Formed env covered parked kinds nested b) :
    Formed env covered parked kinds nested (a ++ b) := by
  induction ha with
  | nil => exact hb
  | literal hbrace hu hs _ ih =>
    exact .literal hbrace (fun hn => (hu hn).mono fun hg => guarded_append hg b) hs (ih hb)
  | placeholder hn _ ih => exact .placeholder hn (ih hb)
  | token hn hf hs _ ih => exact .token hn hf hs (ih hb)
  | slot hp _ ih => exact .slot hp (ih hb)
  | pattern hk hn hv hs hc ha _ _ ih => exact .pattern hk hn hv hs hc ha (ih hb)

theorem park {m : Message} (h : Formed env covered parked kinds nested m)
    (more : List (List Char)) : Formed env covered (parked ++ more) kinds nested m := by
  induction h with
  | nil => exact .nil
  | literal hb hu hs _ ih => exact .literal hb hu hs ih
  | placeholder hn _ ih => exact .placeholder hn ih
  | token hn hf hs _ ih => exact .token hn hf hs ih
  | slot hp _ ih => exact .slot (getElem?_park hp more) ih
  | pattern hk hn hv hs hc _ _ iha ih => exact .pattern hk hn hv hs hc iha ih

/-- The clauses of a pattern may take its place. -/
theorem lift {m : Message} (h : Formed env covered parked kinds true m) (nested : Bool) :
    Formed env covered parked kinds nested m := by
  generalize hn : true = inside at h
  induction h with
  | nil => exact .nil
  | literal hb hu hs _ ih => exact .literal hb (fun _ => hu hn.symm) hs (ih hn)
  | placeholder h _ ih => exact .placeholder h (ih hn)
  | token h hf hs _ ih => exact .token h hf hs (ih hn)
  | slot hp _ ih => exact .slot hp (ih hn)
  | pattern hk h hv hs hc ha _ _ ih => exact .pattern hk h hv hs hc ha (ih hn)

end Message.Formed

/-! ### Where a rendering begins -/

/-- A message as it is before the first sweep, with hashes below one numeric pattern at most. -/
structure Message.Sound (env : Env) (parked : List (List Char)) (kinds : List Kind)
    (nested : Bool) (depth : Nat) (m : Message) : Prop where
  formed : m.Formed env false parked kinds nested
  wellFormed : m.wellFormed nested depth = true

/-- What a rendering needs of a part besides its form. -/
def Part.Fits (env : Env) : Part → Prop
  | .pattern kind name _ => env.serves kind name = true
  | .token _ format => slotOpen ∉ format
  | _ => True

theorem noBrace_of_isLiteral {nested hashes : Bool} {cs : List Char}
    (h : ∀ c ∈ cs, isLiteral nested hashes c = true) : NoBrace cs := by
  intro c hc
  have hchar := h c hc
  simp only [isLiteral, Bool.and_eq_true, bne_iff_ne, ne_eq] at hchar
  exact hchar.1.1.1

theorem slotOpen_notMem_of_isLiteral {nested hashes : Bool} {cs : List Char}
    (h : ∀ c ∈ cs, isLiteral nested hashes c = true) : slotOpen ∉ cs := by
  intro hmem
  have hchar := h _ hmem
  simp [isLiteral] at hchar

mutual

theorem Part.formed_of_wellFormed {nested : Bool} {depth : Nat} {p : Part} {m : Message}
    (hw : p.wellFormed nested depth = true) (hf : ∀ q ∈ p.parts, q.Fits env)
    (hm : m.Formed env false parked passOrder nested) :
    Message.Formed env false parked passOrder nested (p :: m) := by
  match p with
  | .literal cs =>
    have hchar : ∀ c ∈ cs, isLiteral nested (depth ≤ 1) c = true := by
      simpa only [Part.wellFormed, List.all_eq_true] using hw
    refine .literal (noBrace_of_isLiteral hchar) (fun hn => unmarked_of_notMem fun hmem => ?_)
      (fun _ => slotOpen_notMem_of_isLiteral hchar) hm
    have hcomma := hchar _ hmem
    simp [isLiteral, hn] at hcomma
  | .placeholder name => exact .placeholder hw hm
  | .token name format =>
    simp only [Part.wellFormed, Bool.and_eq_true, List.all_eq_true] at hw
    have hfits := hf (.token name format) (by simp [Part.parts])
    exact .token hw.1 hw.2 (fun _ => hfits) hm
  | .slot _ _ => simp [Part.wellFormed] at hw
  | .pattern kind name arms =>
    simp only [Part.wellFormed, Bool.and_eq_true] at hw
    have harms := Arms.formed_of_wellFormed hw.2 fun q hq => hf q (by simp [Part.parts, hq])
    have hfits := hf (.pattern kind name arms) (by simp [Part.parts])
    have hkind : kind ∈ passOrder := by cases kind <;> decide
    exact .pattern hkind hw.1 hfits (List.forall_mem_map.2 fun a ha => (harms a ha).1)
      (fun hc => Bool.noConfusion hc) (fun a ha => (harms a ha).2) hm

theorem Message.formed_of_wellFormed {nested : Bool} {depth : Nat} {m : Message}
    (hw : m.wellFormed nested depth = true) (hf : ∀ q ∈ m.parts, q.Fits env) :
    m.Formed env false parked passOrder nested := by
  match m with
  | [] => exact .nil
  | p :: ps =>
    simp only [Message.wellFormed, Bool.and_eq_true] at hw
    have hrest : Message.Formed env false parked passOrder nested ps :=
      Message.formed_of_wellFormed hw.2 fun q hq => hf q (by simp [Message.parts, hq])
    exact Part.formed_of_wellFormed hw.1 (fun q hq => hf q (by simp [Message.parts, hq])) hrest

theorem Arms.formed_of_wellFormed {depth : Nat} {arms : Arms}
    (hw : arms.wellFormed depth = true) (hf : ∀ q ∈ arms.parts, q.Fits env) :
    ∀ a ∈ arms, isSelector a.1 = true ∧ Message.Formed env false parked passOrder true a.2 := by
  match arms with
  | [] => simp
  | (selector, body) :: rest =>
    simp only [Arms.wellFormed, Bool.and_eq_true] at hw
    have hbody : Message.Formed env false parked passOrder true body :=
      Message.formed_of_wellFormed hw.1.2 fun q hq => hf q (by simp [Arms.parts, hq])
    have hrest := Arms.formed_of_wellFormed hw.2 fun q hq => hf q (by simp [Arms.parts, hq])
    exact List.forall_mem_cons.2 ⟨⟨hw.1.1, hbody⟩, hrest⟩

end

/-- A well-formed message is sound before the first sweep. -/
theorem Message.sound_of_wellFormed {nested : Bool} {depth : Nat} {m : Message}
    (hw : m.wellFormed nested depth = true) (hf : ∀ q ∈ m.parts, q.Fits env) :
    m.Sound env parked passOrder nested depth :=
  ⟨Message.formed_of_wellFormed hw hf, hw⟩

/-! ### The text of a message with its hashes filled -/

theorem hash_notMem_of_isName {name : List Char} (h : isName name = true) : '#' ∉ name := by
  intro hmem
  simp only [isName, Bool.and_eq_true, List.all_eq_true] at h
  exact absurd (h.2 _ hmem) (by decide)

theorem hash_notMem_of_isSelector {s : List Char} (h : isSelector s = true) : '#' ∉ s := by
  intro hmem
  simp only [isSelector, Bool.and_eq_true, List.all_eq_true] at h
  exact absurd (h.2 _ hmem) (by decide)

theorem hash_notMem_slot (index : Nat) : '#' ∉ slot index := by
  intro hmem
  simp only [slot, List.cons_append, List.mem_cons, List.mem_append, List.not_mem_nil,
    or_false] at hmem
  rcases hmem with hmem | hmem | hmem
  · exact absurd hmem (by decide)
  · exact absurd (Decimal.isDigit_of_mem_natDigits hmem) (by decide)
  · exact absurd hmem (by decide)

/-- A pattern with these clauses as it is written. -/
def patternText (kind : Kind) (name : List Char) (cs : List Clause) : List Char :=
  '\x7b' :: (name ++ ',' :: ' ' :: (kind.keyword ++ ',' :: (clauseText cs ++ ['\x7d'])))

theorem print_arms (arms : Arms) : arms.print = clauseText (arms.clauses Message.print) := by
  induction arms with
  | nil => rfl
  | cons a arms ih =>
    obtain ⟨selector, body⟩ := a
    rw [Arms.print, ih]
    simp [Arms.clauses, clauseText_cons]

theorem print_pattern (kind : Kind) (name : List Char) (arms : Arms) :
    (Part.pattern kind name arms).print = patternText kind name (arms.clauses Message.print) := by
  rw [Part.print, print_arms]
  simp [patternText]

/-- The text of a message with `hash` in the place of its hashes. -/
def Message.filled (hash : List Char) (m : Message) : List Char :=
  fillHash hash m.print

theorem filled_hash (m : Message) : m.filled ['#'] = m.print :=
  fillHash_self _

theorem filled_cons (hash : List Char) (p : Part) (m : Message) :
    Message.filled hash (p :: m) = fillHash hash p.print ++ m.filled hash := by
  unfold Message.filled
  rw [Message.print, fillHash_append]

theorem fillHash_clauseText {arms : Arms} (hs : ∀ s ∈ arms.map Prod.fst, isSelector s = true)
    (hash : List Char) :
    fillHash hash (clauseText (arms.clauses Message.print)) =
      clauseText (arms.clauses (Message.filled hash)) := by
  induction arms with
  | nil => rfl
  | cons a arms ih =>
    rw [List.map_cons, List.forall_mem_cons] at hs
    have hsel := hash_notMem_of_isSelector hs.1
    have hclose : fillHash hash ['\x7d'] = ['\x7d'] := fillHash_of_notMem (by decide) hash
    have hrest := ih hs.2
    have head : ∀ f : Message → List Char, clauseText (Arms.clauses f (a :: arms)) =
        (' ' :: a.1 ++ [' ', '\x7b']) ++
          (f a.2 ++ (['\x7d'] ++ clauseText (Arms.clauses f arms))) := by
      intro f
      simp [Arms.clauses, clauseText_cons]
    rw [head, head, fillHash_append hash _ (Message.print _ ++ _),
      fillHash_append hash (Message.print _), fillHash_append hash ['\x7d'], hrest,
      fillHash_of_notMem (by simpa using hsel), hclose]
    rfl

theorem fillHash_pattern {kind : Kind} {name : List Char} {arms : Arms}
    (hn : isName name = true) (hs : ∀ s ∈ arms.map Prod.fst, isSelector s = true) (hash : List Char) :
    fillHash hash (Part.pattern kind name arms).print =
      patternText kind name (arms.clauses (Message.filled hash)) := by
  have hkeyword : '#' ∉ kind.keyword := by cases kind <;> decide
  have head : ∀ cs, patternText kind name cs =
      ('\x7b' :: name ++ ',' :: ' ' :: kind.keyword ++ [',']) ++ (clauseText cs ++ ['\x7d']) := by
    intro cs
    simp [patternText]
  rw [print_pattern, head, head, fillHash_append hash _ (clauseText _ ++ _),
    fillHash_append hash (clauseText _), fillHash_clauseText hs,
    fillHash_of_notMem (by simp [hash_notMem_of_isName hn, hkeyword]),
    fillHash_of_notMem (by decide)]

theorem fillHash_placeholder {name : List Char} (hn : isName name = true) (hash : List Char) :
    fillHash hash (Part.placeholder name).print = '\x7b' :: name ++ ['\x7d'] := by
  rw [Part.print, fillHash_of_notMem]
  simp [hash_notMem_of_isName hn]

theorem fillHash_token {name format : List Char} (hn : isName name = true)
    (hf : ∀ c ∈ format, isFormatChar c = true) (hash : List Char) :
    fillHash hash (Part.token name format).print = '\x7b' :: name ++ '|' :: format ++ ['\x7d'] := by
  have hformat : '#' ∉ format := fun hmem => absurd (hf _ hmem) (by decide)
  rw [Part.print, fillHash_of_notMem]
  simp [hash_notMem_of_isName hn, hformat]

theorem fillHash_slot (index : Nat) (text hash : List Char) :
    fillHash hash (Part.slot index text).print = slot index :=
  fillHash_of_notMem (hash_notMem_slot index) hash

end Phrasebook.Icu
