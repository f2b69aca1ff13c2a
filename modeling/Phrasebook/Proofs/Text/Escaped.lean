import Phrasebook.Text.Markup

/-!
# Texts without markup

A harmless text has none of the characters that mean something in HTML, except ampersands that begin
entities. `Escaped` is the shape of such texts, one character or entity after the other, which is
easier to carry through a rendering; `Escaped.harmless` says that it is enough.
-/

namespace Phrasebook.Text

/-- The characters with a meaning in HTML. -/
def markup : List Char := ['&', '<', '>', '"', '\'', '/']

/-- The entities that stand for them, in the same order. -/
def entities : List (List Char) :=
  ["&amp;", "&lt;", "&gt;", "&quot;", "&#x27;", "&#x2f;"].map String.toList

/-- No markup, and every ampersand begins an entity. -/
def Harmless (cs : List Char) : Prop :=
  (∀ c ∈ cs, c ∈ markup → c = '&') ∧
    ∀ before after, cs = before ++ '&' :: after → ∃ e ∈ entities, e <+: '&' :: after

/-- A text made of characters that mean nothing in HTML and of entities. -/
inductive Escaped : List Char → Prop
  | nil : Escaped []
  | char {c cs} (hc : c ∉ markup) (h : Escaped cs) : Escaped (c :: cs)
  | entity {e cs} (he : e ∈ entities) (h : Escaped cs) : Escaped (e ++ cs)

theorem escapeChar_of_notMem {c : Char} (h : c ∉ markup) : escapeChar c = [c] := by
  unfold escapeChar
  split <;> simp_all [markup]

theorem escapeChar_mem_entities : ∀ c ∈ markup, escapeChar c ∈ entities := by
  have hall : (markup.all fun c => entities.contains (escapeChar c)) = true := by decide
  exact fun c hc => List.contains_iff_mem.1 (List.all_eq_true.1 hall c hc)

theorem mem_of_mem_escapeChar {c d : Char} (h : d ∈ escapeChar c) :
    d = c ∨ ∃ e ∈ entities, d ∈ e := by
  by_cases hc : c ∈ markup
  · exact .inr ⟨_, escapeChar_mem_entities c hc, h⟩
  · rw [escapeChar_of_notMem hc] at h
    exact .inl (List.mem_singleton.1 h)

/-- An entity begins with its only character that means something. -/
theorem exists_of_mem_entities {e : List Char} (he : e ∈ entities) :
    ∃ tail, e = '&' :: tail ∧ ∀ c ∈ tail, c ∉ markup := by
  have hall : (entities.all fun e =>
      e == '&' :: e.tail && e.tail.all fun c => !markup.contains c) = true := by
    decide
  have hsplit := List.all_eq_true.1 hall e he
  rw [Bool.and_eq_true, beq_iff_eq, List.all_eq_true] at hsplit
  exact ⟨e.tail, hsplit.1, fun c hc => by simpa using hsplit.2 c hc⟩

namespace Escaped

variable {a b cs : List Char}

theorem append (ha : Escaped a) (hb : Escaped b) : Escaped (a ++ b) := by
  induction ha with
  | nil => exact hb
  | char hc _ ih => exact .char hc ih
  | entity he _ ih =>
    rw [List.append_assoc]
    exact .entity he ih

theorem flatMap {α : Type} {f : α → List Char} {xs : List α} (h : ∀ x ∈ xs, Escaped (f x)) :
    Escaped (xs.flatMap f) := by
  induction xs with
  | nil => exact .nil
  | cons x xs ih =>
    rw [List.flatMap_cons]
    exact (h x List.mem_cons_self).append (ih fun y hy => h y (List.mem_cons_of_mem _ hy))

theorem of_notMem (h : ∀ c ∈ cs, c ∉ markup) : Escaped cs := by
  induction cs with
  | nil => exact .nil
  | cons c cs ih =>
    exact .char (h c List.mem_cons_self) (ih fun d hd => h d (List.mem_cons_of_mem _ hd))

theorem escape (cs : List Char) : Escaped (cs.flatMap escapeChar) := by
  refine flatMap fun c _ => ?_
  by_cases hc : c ∈ markup
  · rw [← List.append_nil (escapeChar c)]
    exact .entity (escapeChar_mem_entities c hc) .nil
  · rw [escapeChar_of_notMem hc]
    exact .char hc .nil

/-- Text in front of which no entity begins can be taken away. -/
theorem of_append (h : Escaped (a ++ b)) (ha : '&' ∉ a) : Escaped b := by
  induction a with
  | nil => exact h
  | cons c a ih =>
    have hc : c ≠ '&' := fun he => ha (he ▸ List.mem_cons_self)
    refine ih ?_ fun hmem => ha (List.mem_cons_of_mem _ hmem)
    generalize htext : c :: a ++ b = text at h
    cases h with
    | nil => simp at htext
    | char _ h =>
      obtain ⟨-, rfl⟩ := List.cons.inj htext
      exact h
    | entity he _ =>
      obtain ⟨tail, rfl, -⟩ := exists_of_mem_entities he
      exact absurd (List.cons.inj htext).1 hc

theorem harmless (h : Escaped cs) : Harmless cs := by
  induction h with
  | nil => exact ⟨by simp, by simp⟩
  | @char c cs hc _ ih =>
    refine ⟨fun d hd hm => ?_, fun before after heq => ?_⟩
    · rcases List.mem_cons.1 hd with rfl | hd
      · exact absurd hm hc
      · exact ih.1 d hd hm
    · cases before with
      | nil =>
        obtain ⟨rfl, -⟩ := List.cons.inj heq
        exact absurd (by decide) hc
      | cons d before => exact ih.2 before after (List.cons.inj heq).2
  | @entity e cs he _ ih =>
    obtain ⟨tail, rfl, htail⟩ := exists_of_mem_entities he
    refine ⟨fun d hd hm => ?_, fun before after heq => ?_⟩
    · rcases List.mem_append.1 hd with hd | hd
      · rcases List.mem_cons.1 hd with rfl | hd
        · rfl
        · exact absurd hm (htail d hd)
      · exact ih.1 d hd hm
    · rcases List.append_eq_append_iff.1 heq with ⟨more, hbefore, hcs⟩ | ⟨more, hentity, hafter⟩
      · exact ih.2 more after hcs
      · cases before with
        | nil =>
          rw [List.nil_append] at hentity
          exact ⟨_, he, ⟨cs, by rw [hafter, hentity]⟩⟩
        | cons d before =>
          cases more with
          | nil => exact ih.2 [] after hafter.symm
          | cons x more =>
            obtain ⟨-, hrest⟩ := List.cons.inj hentity
            obtain ⟨rfl, -⟩ := List.cons.inj hafter
            exact absurd (by decide) (htail '&' (by rw [hrest]; simp))

end Escaped

end Phrasebook.Text
