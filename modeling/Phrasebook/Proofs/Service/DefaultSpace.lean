import Phrasebook.Proofs.Key.Canonical
import Phrasebook.Proofs.Service.Supply

/-!
# Spelling out the default namespace

A key without a separator belongs to the default namespace, which valid settings name without a
separator. `default_space_spelled` says what the key means with that namespace written out in front:
the same if the namespace does not begin with a blank character, and otherwise a key of another
namespace, the one without the blank characters.
-/

namespace Phrasebook

namespace Settings

theorem throw_eq_ok_iff {ε α : Type} {e : ε} {a : α} : (throw e : Except ε α) = .ok a ↔ False := by
  simp [throw, throwThe, MonadExceptOf.throw]

theorem bind_eq_ok_iff {ε α : Type} {x : Except ε Unit} {f : Unit → Except ε α} {a : α} :
    x >>= f = .ok a ↔ x = .ok () ∧ f () = .ok a := by
  cases x with
  | error e => simp [bind, Except.bind]
  | ok u => simp [bind, Except.bind]

/-- Settings are valid exactly if none of the faults is there. -/
theorem validate_eq_ok_iff {s : Settings} :
    s.validate = .ok () ↔
      Text.trim s.locale ≠ "" ∧ validateLocale .locale s.locale = .ok () ∧
        (∀ l ∈ s.fallback, validateLocale .fallback l = .ok ()) ∧
        (∀ n ∈ s.defaultSpace, validateSpace n = .ok ()) ∧ s.plural.ending ≠ "" := by
  unfold validate
  by_cases hlocale : Text.trim s.locale = ""
  · simp [hlocale, bind_eq_ok_iff, throw_eq_ok_iff]
  · by_cases hending : s.plural.ending = "" <;>
      cases s.fallback <;> cases s.defaultSpace <;>
      simp [hlocale, hending, bind_eq_ok_iff, throw_eq_ok_iff, pure, Except.pure]

theorem validateSpace_eq_ok_iff {space : String} :
    validateSpace space = .ok () ↔
      Text.trim space ≠ "" ∧ ∀ c ∈ space.toList, Key.isSeparator c = false := by
  have hcheck : validateSpace space =
      if Text.trim space = "" then .error .emptySpace
      else if space.toList.any Key.isSeparator then .error (.separatorInSpace space)
      else .ok () := rfl
  rw [hcheck]
  by_cases hblank : Text.trim space = ""
  · simp [hblank]
  · simp [hblank]

end Settings

namespace Key

variable {space name : String}

/-- The keys that spell out the namespace in front of a bare name. -/
def spelled (space name : String) : List String :=
  [space ++ ":" ++ name, space ++ "." ++ name]

/-- A namespace that passes the check can be written in front of a bare name, once the blank
characters before it are left out. -/
theorem written_trimStart (hspace : Settings.validateSpace space = .ok ())
    (hname : normalize name = name) (hne : name ≠ "")
    (hbare : ∀ c ∈ name.toList, isSeparator c = false) :
    Written (Text.trimStart space) [name] := by
  obtain ⟨hblank, hs⟩ := Settings.validateSpace_eq_ok_iff.1 hspace
  have hlast := (canonical_eq_self_iff.1 (canonical_of_normalize hname)).2.2
  refine ⟨⟨fun hnil => hblank ?_, fun c hc => ?_⟩, ?_, by simp, Text.head_trimStart space, ?_⟩
  · rw [Text.toList_trimStart] at hnil
    rw [Text.trim, Text.trimBy, hnil]
    rfl
  · rw [Text.toList_trimStart] at hc
    exact hs c ((List.dropWhile_sublist _).mem hc)
  · intro s hmem
    obtain rfl : s = name := by simpa using hmem
    exact ⟨fun hnil => hne (String.toList_eq_nil_iff.1 hnil), hbare⟩
  · intro s hmem c hc
    obtain rfl : name = s := by simpa using hmem
    exact isBlank_of_isMargin (hlast c hc)

theorem parse_spelled (hspace : Settings.validateSpace space = .ok ())
    (hname : normalize name = name) (hne : name ≠ "")
    (hbare : ∀ c ∈ name.toList, isSeparator c = false) (default : Option String)
    (locale : String) {key : String} (hkey : key ∈ spelled space name) :
    parse default locale key = ⟨Text.trimStart space, name⟩ := by
  have hwritten := written_trimStart hspace hname hne hbare
  obtain ⟨blank, hblank, hsplit⟩ := Text.exists_blank_append_trimStart space
  rw [spelled, List.mem_pair] at hkey
  obtain rfl | rfl := hkey
  · have h := hwritten.parse_colon default locale
    rw [dotted_singleton, ← parse_blank_append default locale hblank] at h
    rw [← h, ← String.append_assoc, ← String.append_assoc, hsplit]
  · have h := hwritten.parse_point default locale
    rw [dotted_singleton, ← parse_blank_append default locale hblank] at h
    rw [← h, ← String.append_assoc, ← String.append_assoc, hsplit]

theorem parse_bare (default : Option String) (locale : String) (hname : normalize name = name)
    (hbare : ∀ c ∈ name.toList, isSeparator c = false) :
    parse default locale name = ⟨defaultSpace default locale, name⟩ := by
  have hcut : ∀ sep, isSeparator sep = true → sep ∉ name.toList := by
    intro sep hs hmem
    rw [hbare sep hmem] at hs
    exact Bool.noConfusion hs
  have hsplit : split? name.toList = none := by
    unfold split?
    rw [Text.cutLast_eq_none.2 (hcut ':' rfl)]
    exact Text.cutFirst_eq_none.2 (hcut '.' rfl)
  unfold parse
  dsimp only
  rw [canonical_of_normalize hname, hsplit]
  dsimp only
  rw [String.ofList_toList]

/-- No key with a namespace written in it leads to one that begins with a blank character. -/
theorem split?_of_space (default : Option String) (locale : String) {key : String}
    (hspace : (parse default locale key).space = space) (hblank : Text.trimStart space ≠ space) :
    split? (canonical key.toList) = none := by
  cases hsplit : split? (canonical key.toList) with
  | none => rfl
  | some xy =>
    refine absurd (Text.trimStart_eq_self_iff.2 fun c hc => ?_) hblank
    unfold parse at hspace
    dsimp only at hspace
    rw [hsplit] at hspace
    rw [← hspace, String.toList_ofList] at hc
    exact head_of_split? hsplit c hc

end Key

namespace Service

variable {s : Service} {key key' : String}

theorem contextFor_congr {e : Engine}
    (h : Key.parse e.settings.defaultSpace e.locale key =
      Key.parse e.settings.defaultSpace e.locale key') (args : Arguments) :
    contextFor e key args = contextFor e key' args := by
  unfold contextFor
  rw [h]

theorem knows_congr
    (h : Key.parse s.engine.settings.defaultSpace s.engine.locale key =
      Key.parse s.engine.settings.defaultSpace s.engine.locale key') :
    knows s key = knows s key' := by
  unfold knows
  dsimp only
  rw [h]

/-- Two spellings of a key get the same answer, unless it is the key itself. -/
theorem phrase_congr (answer : Handler Engine) {args : Arguments}
    (h : Key.parse s.engine.settings.defaultSpace s.engine.locale key =
      Key.parse s.engine.settings.defaultSpace s.engine.locale key')
    (hfound : args.text? ≠ none ∨ reported? answer key' args s = none) :
    phrase answer key args s = phrase answer key' args s := by
  unfold reported? at hfound
  unfold phrase
  rw [contextFor_congr h]
  generalize s.dispatch answer .before (contextFor s.engine key' args) = found at hfound ⊢
  obtain ⟨c, u⟩ := found
  dsimp only at hfound ⊢
  cases hf : u.engine.findTemplate c.locale (c.space.getD "") (c.name.getD "")
      (countOf c.vars) with
  | some template => rfl
  | none =>
    rw [hf] at hfound
    obtain ⟨text, htext⟩ := Option.ne_none_iff_exists'.1 (hfound.resolve_right (by simp))
    rw [htext]
    rfl

/-- Where the namespace of valid settings does not begin with a blank character, a bare name means
the same with the namespace written out. Otherwise the blank characters are lost, and the namespace
is only reached by keys that do not name one. -/
theorem default_space_spelled {settings : Settings} {space name : String}
    (hvalid : settings.validate = .ok ()) (hspace : settings.defaultSpace = some space)
    (hname : Key.normalize name = name) (hne : name ≠ "")
    (hbare : ∀ c ∈ name.toList, Key.isSeparator c = false) (locale : String) :
    let read := Key.parse settings.defaultSpace locale
    read name = ⟨space, name⟩ ∧
    (∀ key ∈ Key.spelled space name,
      read key = ⟨Text.trimStart space, name⟩ ∧
      (read key = read name ↔ Text.trimStart space = space)) ∧
    (Text.trimStart space = space → ∀ s : Service, s.engine.settings = settings →
      ∀ key ∈ Key.spelled space name, knows s key = knows s name ∧
        ∀ answer args, args.text? ≠ none ∨ reported? answer name args s = none →
          phrase answer key args s = phrase answer name args s) ∧
    (Text.trimStart space ≠ space →
      ∀ key, (read key).space = space → Key.split? (Key.canonical key.toList) = none) := by
  intro read
  have hcheck : Settings.validateSpace space = .ok () :=
    (Settings.validate_eq_ok_iff.1 hvalid).2.2.2.1 space hspace
  have hread : ∀ l, Key.parse settings.defaultSpace l name = ⟨space, name⟩ := by
    intro l
    rw [Key.parse_bare _ l hname hbare, hspace]
    rfl
  have hspelled : ∀ l, ∀ key ∈ Key.spelled space name,
      Key.parse settings.defaultSpace l key = ⟨Text.trimStart space, name⟩ := fun l key hkey =>
    Key.parse_spelled hcheck hname hne hbare _ l hkey
  refine ⟨hread locale, fun key hkey => ⟨hspelled locale key hkey, ?_⟩, ?_, ?_⟩
  · show Key.parse _ _ _ = Key.parse _ _ _ ↔ _
    rw [hspelled locale key hkey, hread locale, Key.mk.injEq]
    exact and_iff_left rfl
  · intro hfront s hs key hkey
    have hsame : Key.parse s.engine.settings.defaultSpace s.engine.locale key =
        Key.parse s.engine.settings.defaultSpace s.engine.locale name := by
      rw [hs, hspelled _ key hkey, hread, hfront]
    exact ⟨knows_congr hsame, fun answer args hfound => phrase_congr answer hsame hfound⟩
  · intro hblank key hkey
    exact Key.split?_of_space _ locale hkey hblank

def homeSettings : Settings where
  locale := "en"
  defaultSpace := some "home"

theorem default_space_spelled_home :
    homeSettings.validate = .ok () ∧
      Key.parse homeSettings.defaultSpace "en" "home:title" =
        Key.parse homeSettings.defaultSpace "en" "title" := by
  have hvalid : homeSettings.validate = .ok () := by decide +kernel
  have hname : Key.normalize "title" = "title" := by decide +kernel
  have hall : ("title".toList.all fun c => Key.isSeparator c == false) = true := by decide
  have hbare : ∀ c ∈ "title".toList, Key.isSeparator c = false := fun c hc =>
    eq_of_beq (List.all_eq_true.1 hall c hc)
  obtain ⟨-, hspelled, -, -⟩ :=
    default_space_spelled hvalid rfl hname (by decide) hbare "en"
  exact ⟨hvalid, (hspelled "home:title" (by decide +kernel)).2.2 (by decide +kernel)⟩

/-- The settings are valid, although the namespace begins with a blank character. -/
def indented : Service :=
  (create { settings := { locale := "en", defaultSpace := some " a" } }).2

/-- The bare name finds the text, and the spelled out key does not. -/
theorem default_space_indented :
    let s := addCatalog (Service.answer 1) "en" " a" [("k", .text "x")] indented
    s.engine.settings.validate = .ok () ∧ s.engine.settings.defaultSpace = some " a" ∧
      Key.parse (some " a") "en" "k" = ⟨" a", "k"⟩ ∧
      Key.parse (some " a") "en" " a:k" = ⟨"a", "k"⟩ ∧
      Key.parse (some " a") "en" " a.k" = ⟨"a", "k"⟩ ∧
      (phrase (Service.answer 1) "k" {} s).1 = "x" ∧
      (phrase (Service.answer 1) " a:k" {} s).1 = " a:k" :=
  ⟨by decide +kernel, by decide +kernel, by decide +kernel, by decide +kernel, by decide +kernel,
    by decide +kernel, by decide +kernel⟩

end Service

end Phrasebook
