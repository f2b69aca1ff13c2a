import Phrasebook.Proofs.Icu.Verbatim
import Phrasebook.Proofs.Service.Untranslated

/-!
# Names without values

A message asks for a value under each name that follows an opening brace, and under no other:
`Icu.bracedNames` lists them. A message none of whose names has a value stays as it is written,
however its braces and slots are arranged: `unbound_unchanged`.
-/

namespace Phrasebook

variable {name cs : List Char}

/-- The runs of word characters right behind opening braces. -/
def Icu.bracedNames : List Char → List (List Char)
  | [] => []
  | c :: cs =>
    if c = '\x7b' ∧ cs.takeWhile Text.isWord ≠ [] then
      cs.takeWhile Text.isWord :: bracedNames cs
    else bracedNames cs

theorem Icu.mem_bracedNames :
    name ∈ bracedNames cs ↔
      name ≠ [] ∧
        ∃ front rest, cs = front ++ '\x7b' :: rest ∧ rest.takeWhile Text.isWord = name := by
  induction cs with
  | nil => simp [bracedNames]
  | cons c cs ih =>
    have hlater : (∃ front rest, c :: cs = front ++ '\x7b' :: rest ∧
          rest.takeWhile Text.isWord = name) ↔
        (c = '\x7b' ∧ cs.takeWhile Text.isWord = name) ∨
          ∃ front rest, cs = front ++ '\x7b' :: rest ∧ rest.takeWhile Text.isWord = name := by
      constructor
      · rintro ⟨front, rest, htext, hname⟩
        cases front with
        | nil =>
          obtain ⟨rfl, rfl⟩ := List.cons.inj htext
          exact .inl ⟨rfl, hname⟩
        | cons d front => exact .inr ⟨front, rest, (List.cons.inj htext).2, hname⟩
      · rintro (⟨rfl, hname⟩ | ⟨front, rest, rfl, hname⟩)
        · exact ⟨[], cs, rfl, hname⟩
        · exact ⟨c :: front, rest, rfl, hname⟩
    rw [hlater, and_or_left, ← ih, bracedNames]
    split
    · rename_i hbrace
      rw [List.mem_cons]
      refine or_congr_left ⟨?_, fun h => h.2.2.symm⟩
      rintro rfl
      exact ⟨hbrace.2, hbrace.1, rfl⟩
    · rename_i hbrace
      refine (or_iff_right ?_).symm
      rintro ⟨hne, rfl, rfl⟩
      exact hbrace ⟨rfl, hne⟩

theorem Vars.lookup_nil (path : String) : Vars.lookup [] path = none := by
  obtain ⟨p, ps, hpieces⟩ := List.exists_cons_of_ne_nil (Text.pieces_ne_nil '.' path.toList)
  rw [Vars.lookup, hpieces]
  rfl

namespace Engine

theorem inert_nil (e : Engine) (template : String) : e.Inert template [] := by
  unfold Inert
  cases e.settings.messageSyntax with
  | mustache =>
    intro path source _
    rw [Mustache.replacement, Vars.lookup_nil]
    rfl
  | icu => exact Icu.inert_of_names fun _ _ _ _ => rfl

end Engine

/-- A message stays as it is if no name behind an opening brace has a value with a text, whatever
else has one. In both syntaxes a message is rendered with values under no names as it is without
values. -/
theorem unbound_unchanged (template : String) :
    (∀ locale escape vars,
      (∀ name ∈ Icu.bracedNames template.toList,
        (Dictionary.find? (String.ofList name) vars).bind Value.display = none) →
      Icu.render ⟨locale, escape, vars⟩ template = template) ∧
    ∀ e : Engine, e.render template (some []) = e.render template none := by
  constructor
  · intro locale escape vars hnames
    have hinert : Icu.Env.Inert ⟨locale, escape, vars⟩ template.toList :=
      Icu.inert_of_names fun front rest htext hne =>
        hnames _ (Icu.mem_bracedNames.2 ⟨hne, front, rest, htext, rfl⟩)
    rw [Icu.render, Icu.renderChars_of_inert hinert, String.ofList_toList]
  · exact fun e => Engine.render_of_inert (e.inert_nil template)

/-- Half a message: patterns that do not end, a clause in two braces, a slot, and a null. -/
def tornMessage : String :=
  "\ue0000\ue001\x7d\x7bcount, plural, one \x7b# \x7bitem\x7d other \x7b\x7bgender, select, " ++
    "a \x7bx\x7d \x7d \x7bn|number\x7d \x7b#\x7d \x7b one\x7d"

/-- Values under words of the message that name nothing, and one under the empty name. -/
def strayVars : Vars :=
  [("", .int 1), ("a", .str "\x7bcount\x7d"), ("item", .null), ("one", .int 1), ("plural", .int 2)]

theorem unbound_unchanged_torn :
    Icu.bracedNames tornMessage.toList =
        ["count".toList, "item".toList, "gender".toList, "x".toList, "n".toList] ∧
      (∀ name ∈ Icu.bracedNames tornMessage.toList,
        (Dictionary.find? (String.ofList name) strayVars).bind Value.display = none) ∧
      Icu.render ⟨"en", true, strayVars⟩ tornMessage = tornMessage := by
  have hnames : ∀ name ∈ Icu.bracedNames tornMessage.toList,
      (Dictionary.find? (String.ofList name) strayVars).bind Value.display = none := by
    decide +kernel
  exact ⟨by decide +kernel, hnames, (unbound_unchanged tornMessage).1 "en" true strayVars hnames⟩

end Phrasebook
