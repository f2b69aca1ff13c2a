import Phrasebook.Proofs.Text.Pieces
import Phrasebook.Template.Icu
import Phrasebook.Template.NumberToken

/-!
# Spellings of a locale

The language of a locale is read in three places: by the parser of identifiers, which the cardinal
rules use, by the ordinal rules, and by the style of numbers. All of them read subtags in lower case,
and `SameSpelling.subtags` says that letter case and the choice between hyphen and underscore make no
difference to these. So neither plural categories nor separators depend on them, nor what is rendered
with them: `spelling_immaterial`.
-/

namespace Phrasebook

variable {a b : String}

namespace LanguageTag

/-- The same letter in either case, or two separators. -/
def SameLetter (c d : Char) : Prop :=
  c.toLower = d.toLower ∨ isSeparator c = true ∧ isSeparator d = true

/-- The same characters up to letter case and the choice of separators. -/
def SameSpelling (a b : String) : Prop :=
  List.Forall₂ SameLetter a.toList b.toList

instance : DecidableRel SameLetter :=
  fun _ _ => inferInstanceAs (Decidable (_ ∨ _))

instance : DecidableRel SameSpelling :=
  fun _ _ => inferInstanceAs (Decidable (List.Forall₂ _ _ _))

theorem isSeparator_toLower (c : Char) : isSeparator c.toLower = isSeparator c := by
  have hsep : ∀ d : Char, isSeparator d = true ↔ d.toNat = 45 ∨ d.toNat = 95 := by
    intro d
    simp only [isSeparator, Bool.or_eq_true, decide_eq_true_eq, ← Char.toNat_inj]
    rfl
  have hlower : c.toLower = c ∨
      65 ≤ c.toNat ∧ c.toNat ≤ 90 ∧ c.toLower.toNat = c.toNat + 32 := by
    unfold Char.toLower
    split
    · rename_i h
      have hle : 65 ≤ c.toNat ∧ c.toNat ≤ 90 := h
      refine .inr ⟨hle.1, hle.2, ?_⟩
      show (c.val + 32).toNat = _
      rw [UInt32.toNat_add]
      exact Nat.mod_eq_of_lt (by show c.toNat + 32 < _; omega)
    · exact .inl rfl
  rw [Bool.eq_iff_iff, hsep, hsep]
  rcases hlower with h | ⟨hlow, hhigh, h⟩
  · rw [h]
  · omega

theorem SameSpelling.subtags (h : SameSpelling a b) :
    subtags (a.toList.map Char.toLower) = subtags (b.toList.map Char.toLower) := by
  apply Text.piecesBy_congr
  rw [List.forall₂_map_left_iff, List.forall₂_map_right_iff]
  refine h.imp fun c d hcd => ?_
  rwa [isSeparator_toLower, isSeparator_toLower]

/-- The language in lower case is the first of the subtags in lower case. -/
theorem head?_subtags (locale : String) :
    (subtags (locale.toList.map Char.toLower)).head? =
      some ((firstSubtag locale).toList.map Char.toLower) := by
  have hstop : ((fun c => !isSeparator c) ∘ Char.toLower) = fun c => !isSeparator c :=
    funext fun c => congrArg not (isSeparator_toLower c)
  rw [LanguageTag.subtags, Text.head?_piecesBy, List.takeWhile_map, hstop, firstSubtag,
    String.toList_ofList]

theorem SameSpelling.firstSubtag (h : SameSpelling a b) :
    (firstSubtag a).toList.map Char.toLower = (firstSubtag b).toList.map Char.toLower := by
  apply Option.some.inj
  rw [← head?_subtags, ← head?_subtags, h.subtags]

theorem SameSpelling.parse (h : SameSpelling a b) : parse a = parse b := by
  unfold LanguageTag.parse
  rw [h.subtags]

theorem language_of_parse {locale : String} {tag : LanguageTag} (h : parse locale = .ok tag) :
    tag.language = if Text.asciiLower (firstSubtag locale) = "und" then ""
      else Text.asciiLower (firstSubtag locale) := by
  have hhead := head?_subtags locale
  unfold LanguageTag.parse at h
  cases hsubtags : subtags (locale.toList.map Char.toLower) with
  | nil => simp [hsubtags] at hhead
  | cons first rest =>
    rw [hsubtags, List.head?_cons, Option.some.injEq] at hhead
    rw [hsubtags] at h
    rw [Text.asciiLower, ← hhead]
    dsimp only at h
    by_cases hlanguage : isLanguage first = true
    · rcases hscript : takeIf isScript rest with ⟨script, more⟩
      rcases hregion : takeIf isRegion more with ⟨region, variants⟩
      simp only [if_pos hlanguage, hscript, hregion] at h
      split at h
      · rw [← Except.ok.inj h]
      · cases h
    · rw [if_neg hlanguage] at h
      cases h

end LanguageTag

open LanguageTag

namespace Plural

theorem isEnglish_iff {locale : String} {tag : LanguageTag} (h : parse locale = .ok tag) :
    isEnglish locale = true ↔ tag.language = "en" := by
  rw [language_of_parse h, isEnglish, beq_iff_eq]
  split
  · rename_i hund
    rw [hund]
    decide
  · rfl

theorem cardinal_spelling (h : SameSpelling a b) (x : Float) : cardinal a x = cardinal b x := by
  unfold cardinal rulesFor
  rw [h.parse]

theorem ordinal_spelling (h : SameSpelling a b) (x : Float) : ordinal a x = ordinal b x := by
  unfold ordinal isEnglish Text.asciiLower
  rw [h.firstSubtag, cardinal_spelling h]

end Plural

theorem NumberStyle.of_spelling (h : SameSpelling a b) : of a = of b := by
  unfold of
  rw [h.firstSubtag]

namespace Icu

variable {escape : Bool} {vars : Vars} {kind : Kind}

theorem choose_spelling (h : SameSpelling a b) (v : Option Value) (options : List Char) :
    choose ⟨a, escape, vars⟩ kind v options = choose ⟨b, escape, vars⟩ kind v options := by
  have hcategory : ∀ count, kind.category a count = kind.category b count := by
    intro count
    cases kind with
    | ordinal => exact Plural.ordinal_spelling h count
    | _ => exact Plural.cardinal_spelling h count
  cases kind <;> simp only [choose, hcategory]

theorem resolveWithin_spelling (h : SameSpelling a b) (fuel : Nat) (w : Work) :
    resolveWithin ⟨a, escape, vars⟩ kind fuel w = resolveWithin ⟨b, escape, vars⟩ kind fuel w := by
  have hreplacement : ∀ name cs, replacement? ⟨a, escape, vars⟩ kind name cs =
      replacement? ⟨b, escape, vars⟩ kind name cs := by
    intro name cs
    simp only [replacement?, choose_spelling h]
  induction fuel generalizing w with
  | zero => rfl
  | succ fuel ih => simp only [resolveWithin, hreplacement, ih]

theorem render_spelling (h : SameSpelling a b) (template : String) :
    render ⟨a, escape, vars⟩ template = render ⟨b, escape, vars⟩ template := by
  have hpass : ∀ w, pass ⟨a, escape, vars⟩ w = pass ⟨b, escape, vars⟩ w := by
    intro w
    simp only [pass, resolve, resolveWithin_spelling h]
  have hsettle : ∀ n w, settle ⟨a, escape, vars⟩ n w = settle ⟨b, escape, vars⟩ n w := by
    intro n
    induction n with
    | zero => exact fun w => rfl
    | succ n ih =>
      intro w
      simp only [settle, hpass, ih]
  simp only [render, renderChars, hsettle]
  rfl

end Icu

/-- Letter case and the choice between hyphen and underscore make no difference to plural categories
and separators, so none to messages and number tokens; locales that are no identifiers are no
exception. The ordinal rules take a locale for English exactly if its parsed language is. -/
theorem spelling_immaterial :
    (∀ a b, SameSpelling a b →
      (∀ count, Plural.cardinal a count = Plural.cardinal b count ∧
        Plural.ordinal a count = Plural.ordinal b count) ∧
      NumberStyle.of a = NumberStyle.of b ∧
      (∀ escape vars template,
        Icu.render ⟨a, escape, vars⟩ template = Icu.render ⟨b, escape, vars⟩ template) ∧
      ∀ vars text, NumberToken.formatTokens a vars text = NumberToken.formatTokens b vars text) ∧
    ∀ locale tag, parse locale = .ok tag →
      (Plural.isEnglish locale = true ↔ tag.language = "en") := by
  refine ⟨fun a b h => ⟨fun count => ?_, NumberStyle.of_spelling h, fun escape vars template => ?_,
    fun vars text => ?_⟩, fun locale tag h => Plural.isEnglish_iff h⟩
  · exact ⟨Plural.cardinal_spelling h count, Plural.ordinal_spelling h count⟩
  · exact Icu.render_spelling h template
  · unfold NumberToken.formatTokens
    rw [NumberStyle.of_spelling h]

/-- European Portuguese has rules of its own, for which its region is read, too. -/
theorem spelling_immaterial_portuguese :
    SameSpelling "PT_pt" "pt-PT" ∧
      Plural.cardinal "PT_pt" 0 = .other ∧ Plural.cardinal "pt" 0 = .one ∧
      Plural.ordinal "PT_pt" 0 = .other ∧ NumberStyle.of "PT_pt" = ⟨['.'], [','], true⟩ ∧
      parse "En_gb" = .ok { language := "en", region := some "gb" } ∧
      Plural.isEnglish "En_gb" = true := by
  have hsame : SameSpelling "PT_pt" "pt-PT" := by decide +kernel
  have hparse : parse "En_gb" = .ok { language := "en", region := some "gb" } := by decide +kernel
  obtain ⟨hcategory, hstyle, -⟩ := spelling_immaterial.1 _ _ hsame
  refine ⟨hsame, (hcategory 0).1.trans ?_, ?_, (hcategory 0).2.trans ?_, hstyle.trans ?_, hparse,
    (spelling_immaterial.2 _ _ hparse).2 rfl⟩ <;> decide +kernel

end Phrasebook
