import Phrasebook.Proofs.Icu.Clauses
import Phrasebook.Proofs.Icu.Filling

/-!
# Which number a hash stands for

`Message.evalBy` is the meaning of a message under a rule for hashes, which sees all numeric patterns
around a place. `innermost` is the rule of `Message.eval`; `outermost` prefers plurals and takes the
outermost of them. `Message.evalBy_congr` is how two rules are compared: it is enough that they agree
where the message has a hash.
-/

namespace Phrasebook.Icu

/-- The numeric patterns around a place with their numbers, the innermost first. -/
abbrev Stack := List (Kind × List Char)

mutual

/-- What a part stands for, when a hash stands for what the rule makes of the patterns around it. -/
def Part.evalBy (rule : Stack → List Char) (env : Env) (around : Stack) : Part → List Char
  | .literal cs => fillHash (rule around) cs
  | .placeholder name =>
    (((env.value? name).bind Value.display).map (showText env.escape)).getD
      ('\x7b' :: name ++ ['\x7d'])
  | .token name format => '\x7b' :: name ++ '|' :: format ++ ['\x7d']
  | .slot _ text => text
  | .pattern .select name arms =>
    match (env.value? name).bind Value.display with
    | some text =>
      let cs := Arms.evalBy rule env around arms
      ((bodyOf text.toList cs).or (bodyOf Category.other.keyword.toList cs)).getD
        (showText env.escape text)
    | none => (Part.pattern .select name arms).print
  | .pattern kind name arms =>
    match (env.value? name).bind Value.number? with
    | some count =>
      let number := plainChars (Binary64.ofFloat count)
      (numberBody (kind.category env.locale count) count
        (Arms.evalBy rule env ((kind, number) :: around) arms)).getD number
    | none => (Part.pattern kind name arms).print

def Message.evalBy (rule : Stack → List Char) (env : Env) (around : Stack) :
    Message → List Char
  | [] => []
  | p :: ps => p.evalBy rule env around ++ Message.evalBy rule env around ps

/-- The clauses with what their bodies stand for. -/
def Arms.evalBy (rule : Stack → List Char) (env : Env) (around : Stack) : Arms → List Clause
  | [] => []
  | (selector, body) :: rest =>
    ⟨selector, Message.evalBy rule env around body⟩ :: Arms.evalBy rule env around rest

end

/-- The number of the innermost pattern, or a hash outside of all. -/
def innermost (around : Stack) : List Char :=
  (around.head?.map Prod.snd).getD ['#']

/-- The number of the outermost plural, else of the outermost pattern, or a hash outside of all. -/
def outermost (around : Stack) : List Char :=
  (((around.filter fun x => x.1 = .plural).getLast?.or around.getLast?).map Prod.snd).getD ['#']

mutual

/-- For each text with a hash, the kinds of the numeric patterns around it. -/
def Part.hashKinds (around : List Kind) : Part → List (List Kind)
  | .literal cs => if cs.contains '#' then [around] else []
  | .placeholder _ => []
  | .token _ _ => []
  | .slot _ _ => []
  | .pattern kind _ arms =>
    Arms.hashKinds (if kind.isNumeric then kind :: around else around) arms

def Message.hashKinds (around : List Kind) : Message → List (List Kind)
  | [] => []
  | p :: ps => p.hashKinds around ++ Message.hashKinds around ps

def Arms.hashKinds (around : List Kind) : Arms → List (List Kind)
  | [] => []
  | (_, body) :: rest => Message.hashKinds around body ++ Arms.hashKinds around rest

end

/-- Whether both rules take the number of the innermost of these patterns: it is the only one, or the
only plural. -/
def innermostCounts : List Kind → Bool
  | [] => true
  | kind :: outer => outer.isEmpty || (kind == .plural && !outer.contains .plural)

variable {env : Env} {kind : Kind} {name : List Char} {rule rule' : Stack → List Char}

/-! ### Evaluation -/

theorem evalBy_numeric (hk : kind.isNumeric = true) (around : Stack) (arms : Arms) :
    (Part.pattern kind name arms).evalBy rule env around =
      match (env.value? name).bind Value.number? with
      | some count =>
        (numberBody (kind.category env.locale count) count
          (Arms.evalBy rule env ((kind, plainChars (Binary64.ofFloat count)) :: around) arms)).getD
            (plainChars (Binary64.ofFloat count))
      | none => (Part.pattern kind name arms).print := by
  cases kind with
  | select => simp [Kind.isNumeric] at hk
  | plural => rfl
  | ordinal => rfl

theorem eval_numeric (hk : kind.isNumeric = true) (hash : List Char) (arms : Arms) :
    (Part.pattern kind name arms).eval env hash =
      match (env.value? name).bind Value.number? with
      | some count =>
        (numberBody (kind.category env.locale count) count
          (Arms.eval env (plainChars (Binary64.ofFloat count)) arms)).getD
            (plainChars (Binary64.ofFloat count))
      | none => (Part.pattern kind name arms).print := by
  cases kind with
  | select => simp [Kind.isNumeric] at hk
  | plural => rfl
  | ordinal => rfl

theorem evalBy_append (around : Stack) (a b : Message) :
    Message.evalBy rule env around (a ++ b) =
      Message.evalBy rule env around a ++ Message.evalBy rule env around b := by
  induction a with
  | nil => rfl
  | cons p a ih => rw [List.cons_append, Message.evalBy, Message.evalBy, ih, List.append_assoc]

theorem Arms.evalBy_eq_clauses (around : Stack) (arms : Arms) :
    Arms.evalBy rule env around arms = arms.clauses (Message.evalBy rule env around) := by
  induction arms with
  | nil => rfl
  | cons a arms ih =>
    obtain ⟨selector, body⟩ := a
    rw [Arms.evalBy, ih]
    rfl

theorem Kind.eq_select (hk : ¬ kind.isNumeric = true) : kind = .select := by
  cases kind <;> simp [Kind.isNumeric] at hk ⊢

section Congr

variable {below below' : Stack}

mutual

theorem Part.evalBy_congr (inside : Stack) (p : Part)
    (h : ∀ s : Stack, s.map Prod.fst ∈ p.hashKinds (inside.map Prod.fst) →
      rule (s ++ below) = rule' (s ++ below')) :
    p.evalBy rule env (inside ++ below) = p.evalBy rule' env (inside ++ below') := by
  match p with
  | .literal cs =>
    rw [Part.evalBy, Part.evalBy]
    by_cases hc : '#' ∈ cs
    · rw [h inside (by simp [Part.hashKinds, hc])]
    · rw [fillHash_of_notMem hc, fillHash_of_notMem hc]
  | .placeholder _ => rw [Part.evalBy, Part.evalBy]
  | .token _ _ => rw [Part.evalBy, Part.evalBy]
  | .slot _ _ => rw [Part.evalBy, Part.evalBy]
  | .pattern kind name arms =>
    by_cases hk : kind.isNumeric = true
    · rw [evalBy_numeric hk, evalBy_numeric hk]
      cases (env.value? name).bind Value.number? with
      | none => rfl
      | some count =>
        have harms := Arms.evalBy_congr ((kind, plainChars (Binary64.ofFloat count)) :: inside)
          arms fun s hs => h s (by simpa [Part.hashKinds, hk] using hs)
        dsimp only
        rw [← List.cons_append, ← List.cons_append, harms]
    · obtain rfl := Kind.eq_select hk
      have harms := Arms.evalBy_congr inside arms fun s hs =>
        h s (by simpa [Part.hashKinds, hk] using hs)
      rw [Part.evalBy, Part.evalBy, harms]

/-- Two rules that agree at the hashes of a message agree on it. -/
theorem Message.evalBy_congr (inside : Stack) (m : Message)
    (h : ∀ s : Stack, s.map Prod.fst ∈ m.hashKinds (inside.map Prod.fst) →
      rule (s ++ below) = rule' (s ++ below')) :
    m.evalBy rule env (inside ++ below) = m.evalBy rule' env (inside ++ below') := by
  match m with
  | [] => rfl
  | p :: ps =>
    rw [Message.evalBy, Message.evalBy,
      Part.evalBy_congr inside p fun s hs => h s (List.mem_append_left _ hs),
      Message.evalBy_congr inside ps fun s hs => h s (List.mem_append_right _ hs)]

theorem Arms.evalBy_congr (inside : Stack) (arms : Arms)
    (h : ∀ s : Stack, s.map Prod.fst ∈ arms.hashKinds (inside.map Prod.fst) →
      rule (s ++ below) = rule' (s ++ below')) :
    arms.evalBy rule env (inside ++ below) = arms.evalBy rule' env (inside ++ below') := by
  match arms with
  | [] => rfl
  | (_, body) :: rest =>
    rw [Arms.evalBy, Arms.evalBy,
      Message.evalBy_congr inside body fun s hs => h s (List.mem_append_left _ hs),
      Arms.evalBy_congr inside rest fun s hs => h s (List.mem_append_right _ hs)]

end

end Congr

mutual

theorem Part.eval_eq_evalBy (around : Stack) (p : Part) :
    p.eval env (innermost around) = p.evalBy innermost env around := by
  match p with
  | .literal _ => rw [Part.eval, Part.evalBy]
  | .placeholder _ => rw [Part.eval, Part.evalBy]
  | .token _ _ => rw [Part.eval, Part.evalBy]
  | .slot _ _ => rw [Part.eval, Part.evalBy]
  | .pattern kind name arms =>
    by_cases hk : kind.isNumeric = true
    · rw [eval_numeric hk, evalBy_numeric hk]
      cases (env.value? name).bind Value.number? with
      | none => rfl
      | some count =>
        have harms : Arms.eval env (plainChars (Binary64.ofFloat count)) arms =
            Arms.evalBy innermost env ((kind, plainChars (Binary64.ofFloat count)) :: around) arms :=
          Arms.eval_eq_evalBy ((kind, plainChars (Binary64.ofFloat count)) :: around) arms
        dsimp only
        rw [harms]
    · obtain rfl := Kind.eq_select hk
      have harms := Arms.eval_eq_evalBy around arms
      unfold Part.eval Part.evalBy
      generalize Arms.eval env (innermost around) arms = cs at harms ⊢
      subst harms
      rfl

/-- Evaluation takes the number of the innermost pattern. -/
theorem Message.eval_eq_evalBy (around : Stack) (m : Message) :
    m.eval env (innermost around) = m.evalBy innermost env around := by
  match m with
  | [] => rfl
  | p :: ps =>
    rw [Message.eval, Message.evalBy, Part.eval_eq_evalBy around p,
      Message.eval_eq_evalBy around ps]

theorem Arms.eval_eq_evalBy (around : Stack) (arms : Arms) :
    arms.eval env (innermost around) = arms.evalBy innermost env around := by
  match arms with
  | [] => rfl
  | (_, body) :: rest =>
    rw [Arms.eval, Arms.evalBy, Message.eval_eq_evalBy around body,
      Arms.eval_eq_evalBy around rest]

end

/-! ### The two rules -/

theorem outermost_append_plural (s : Stack) {around : Stack} (h : ∀ x ∈ around, x.1 ≠ .plural)
    (number : List Char) : outermost (s ++ (.plural, number) :: around) = number := by
  have hnone : around.filter (fun x => x.1 = .plural) = [] :=
    List.filter_eq_nil_iff.2 fun x hx => by simpa using h x hx
  simp [outermost, List.filter_append, hnone]

theorem outermost_eq_innermost {around : Stack}
    (h : innermostCounts (around.map Prod.fst) = true) : outermost around = innermost around := by
  match around with
  | [] => rfl
  | (kind, number) :: outer =>
    simp only [List.map_cons, innermostCounts, Bool.or_eq_true, Bool.and_eq_true, beq_iff_eq,
      Bool.not_eq_true', List.isEmpty_iff, List.map_eq_nil_iff, List.contains_eq_mem,
      decide_eq_false_iff_not, List.mem_map, not_exists, not_and] at h
    rcases h with rfl | ⟨rfl, hplural⟩
    · cases kind <;> rfl
    · exact outermost_append_plural [] hplural number

/-- Where each hash has the innermost number by both rules, they give the same. -/
theorem evalBy_outermost_eq {m : Message}
    (h : (m.hashKinds []).all innermostCounts = true) :
    m.evalBy outermost env [] = m.eval env ['#'] := by
  have hrules : m.evalBy outermost env ([] ++ []) = m.evalBy innermost env ([] ++ []) := by
    refine Message.evalBy_congr [] m fun s hs => ?_
    rw [List.append_nil]
    exact outermost_eq_innermost (List.all_eq_true.1 h _ hs)
  exact hrules.trans (Message.eval_eq_evalBy [] m).symm

mutual

theorem Part.hashKinds_of_wellFormed {nested : Bool} {around : List Kind} {p : Part}
    (h : p.wellFormed nested around.length = true) : ∀ ks ∈ p.hashKinds around, ks.length ≤ 1 := by
  match p with
  | .literal cs =>
    intro ks hks
    simp only [Part.hashKinds, List.contains_iff_mem] at hks
    split at hks
    · rename_i hc
      have hhash := List.all_eq_true.1 h _ hc
      rw [List.mem_singleton.1 hks]
      simpa [isLiteral] using (Bool.and_eq_true_iff.1 hhash).2
    · simp at hks
  | .placeholder _ => simp [Part.hashKinds]
  | .token _ _ => simp [Part.hashKinds]
  | .slot _ _ => simp [Part.hashKinds]
  | .pattern kind name arms =>
    simp only [Part.wellFormed, Bool.and_eq_true, Kind.depthBelow] at h
    by_cases hk : kind.isNumeric = true
    · rw [if_pos hk] at h
      rw [Part.hashKinds, if_pos hk]
      exact Arms.hashKinds_of_wellFormed h.2
    · rw [if_neg hk] at h
      rw [Part.hashKinds, if_neg hk]
      exact Arms.hashKinds_of_wellFormed h.2

theorem Message.hashKinds_of_wellFormed {nested : Bool} {around : List Kind} {m : Message}
    (h : m.wellFormed nested around.length = true) : ∀ ks ∈ m.hashKinds around, ks.length ≤ 1 := by
  match m with
  | [] => simp [Message.hashKinds]
  | p :: ps =>
    simp only [Message.wellFormed, Bool.and_eq_true] at h
    exact List.forall_mem_append.2
      ⟨Part.hashKinds_of_wellFormed h.1, Message.hashKinds_of_wellFormed h.2⟩

theorem Arms.hashKinds_of_wellFormed {around : List Kind} {arms : Arms}
    (h : arms.wellFormed around.length = true) : ∀ ks ∈ arms.hashKinds around, ks.length ≤ 1 := by
  match arms with
  | [] => simp [Arms.hashKinds]
  | (selector, body) :: rest =>
    simp only [Arms.wellFormed, Bool.and_eq_true] at h
    exact List.forall_mem_append.2
      ⟨Message.hashKinds_of_wellFormed h.1.2, Arms.hashKinds_of_wellFormed h.2⟩

end

theorem innermostCounts_of_length {ks : List Kind} (h : ks.length ≤ 1) :
    innermostCounts ks = true := by
  match ks with
  | [] => rfl
  | [_] => simp [innermostCounts]
  | _ :: _ :: _ => simp at h

/-! ### Below a pattern that was replaced -/

/-- The patterns around a place, together with the one whose number took the place of hashes. -/
def Stack.under (kind : Kind) (fill : Option (List Char)) (around : Stack) : Stack :=
  around ++ fill.toList.map (kind, ·)

/-- A pattern of the kind around all of these is the one that counts. -/
def Kind.Rules (kind : Kind) (around : Stack) : Prop :=
  match kind with
  | .plural => ∀ x ∈ around, x.1 ≠ .plural
  | .select => True
  | .ordinal => around = []

theorem fillHash_outermost {around : Stack} {fill : Option (List Char)} (hr : kind.Rules around)
    (hf : ∀ number, fill = some number → kind.isNumeric = true ∧ '#' ∉ number) :
    fillHash (outermost around) (fill.getD ['#']) = outermost (Stack.under kind fill around) := by
  cases fill with
  | none => simp [Stack.under, fillHash_hash]
  | some number =>
    obtain ⟨hk, hn⟩ := hf number rfl
    rw [Option.getD_some, fillHash_of_notMem hn]
    cases kind with
    | plural => exact (outermost_append_plural around (by simp) number).symm
    | select => simp [Kind.isNumeric] at hk
    | ordinal =>
      obtain rfl : around = [] := hr
      rfl

/-- Below a pattern of the kind, its number counts if no pattern of the kind is around it. -/
theorem outermost_under {around : Stack} {fill : Option (List Char)} (hk : kind.isNumeric = true)
    (hr : kind.Rules around) (number : List Char) (s : Stack) :
    outermost (s ++ (kind, number) :: Stack.under kind fill around) =
      outermost (s ++ Stack.under kind (fill.or (some number)) around) := by
  cases kind with
  | plural =>
    have hlast : ∀ (t : Stack) (n : List Char), outermost (t ++ [(.plural, n)]) = n :=
      fun t n => outermost_append_plural t (by simp) n
    cases fill with
    | none =>
      have hfirst := outermost_append_plural s hr number
      simpa [Stack.under, hlast, ← List.append_assoc] using hfirst
    | some n =>
      have hleft := hlast (s ++ (.plural, number) :: around) n
      have hright := hlast (s ++ around) n
      simpa [Stack.under] using hleft.trans hright.symm
  | select => simp [Kind.isNumeric] at hk
  | ordinal =>
    obtain rfl : around = [] := hr
    cases fill with
    | none => rfl
    | some n => simp [Stack.under, outermost, List.filter_append]

end Phrasebook.Icu
