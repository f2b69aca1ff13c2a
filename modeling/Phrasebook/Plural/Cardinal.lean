import Phrasebook.Plural.Rules

/-!
# Cardinal rules by language

`cardinalRules` lists the rules of every language that has its own, in groups of languages with the
same rules. A language that is in no group follows English.
-/

namespace Phrasebook.Plural

private def cardinalPart1 : List (List String × Rules) :=
  [
  (
    ["af", "an", "asa", "az", "bem", "bez", "bg", "brx", "ce", "cgg", "chr", "ckb", "dv", "ee",
     "el", "eo", "es", "eu", "fo", "fur", "gsw", "ha", "haw", "hu", "jgo", "jmc", "ka", "kaj",
     "kcg", "kk", "kkj", "kl", "ks", "ksb", "ku", "ky", "lb", "lg", "mas", "mgo", "ml", "mn",
     "mr", "nah", "nb", "nd", "ne", "nn", "nnh", "no", "nr", "ny", "nyn", "om", "or", "os",
     "pap", "ps", "rm", "rof", "rwk", "saq", "sd", "sdh", "seh", "sn", "so", "sq", "ss", "ssy",
     "st", "syr", "ta", "te", "teo", "tig", "tk", "tn", "tr", "ts", "ug", "uz", "ve", "vo",
     "vun", "wae", "xh", "xog"],
    [(.one, [[.within .n [(1, 1)]]])]),
  (
    ["ak", "bho", "guw", "ln", "mg", "nso", "pa", "ti", "wa"],
    [(.one, [[.within .i [(0, 1)], .within .f [(0, 0)]]])]),
  (
    ["am", "as", "bn", "fa", "gu", "hi", "kn", "pcm", "zu"],
    [(.one, [
        [.within .i [(0, 0)]],
        [.within .n [(1, 1)]]])]),
  (
    ["ar", "ars"],
    [(.few, [[.within .i [(3, 10)]]]),
      (.many, [[.within .i [(11, 99)]]]),
      (.one, [[.within .n [(1, 1)]]]),
      (.two, [[.within .n [(2, 2)]]]),
      (.zero, [[.within .n [(0, 0)]]])]),
  (
    ["ast", "ca", "de", "en", "et", "fi", "fy", "gl", "ia", "io", "it", "ji", "nl", "sc", "scn",
     "sv", "sw", "ur", "yi"],
    [(.one, [[.within .i [(1, 1)], .within .v [(0, 0)]]])]),
  (
    ["be"],
    [(.few, [[.within .i [(2, 4)], .outside .i [(12, 14)]]]),
      (.many, [
        [.within (.mod .i 10) [(0, 0)]],
        [.within .i [(5, 9), (11, 14)]]]),
      (.one, [[.within (.mod .i 10) [(1, 1)], .outside (.mod .i 100) [(11, 11)]]])]),
  (
    ["bm", "bo", "dz", "id", "ig", "ii", "in", "ja", "jbo", "jv", "jw", "kde", "kea", "km", "ko",
     "lkt", "lo", "ms", "my", "nqo", "osa", "sah", "ses", "sg", "su", "th", "to", "vi", "wo",
     "yo", "yue", "zh"],
    []),
  (
    ["br"],
    [(.few, [
        [.within (.mod .i 10) [(9, 9)], .outside .i [(10, 19), (70, 79), (90, 99)]],
        [.within .i [(3, 4)], .outside .i [(10, 19), (70, 79), (90, 99)]]]),
      (.many, [[.outside .n [(0, 0)], .within (.mod .i 1000000) [(0, 0)]]]),
      (.one, [
        [.within (.mod .i 10) [(1, 1)], .outside (.mod .i 100) [(11, 11), (71, 71), (91, 91)]]]),
      (.two, [
        [.within (.mod .i 10) [(2, 2)], .outside (.mod .i 100) [(12, 12), (72, 72), (92, 92)]]])]),
  (
    ["bs", "hr", "sh", "sr"],
    [(.few, [
        [.within .v [(0, 0)], .within (.mod .i 10) [(2, 4)], .outside (.mod .i 100) [(12, 14)]],
        [.within (.mod .f 10) [(2, 4)], .outside (.mod .f 100) [(12, 14)]]]),
      (.one, [
        [.within .v [(0, 0)], .within (.mod .i 10) [(1, 1)], .outside (.mod .i 100) [(11, 11)]],
        [.within (.mod .f 10) [(1, 1)], .outside (.mod .f 100) [(11, 11)]]])]),
  (
    ["ceb", "fil", "tl"],
    [(.one, [
        [.within .v [(0, 0)], .within .i [(1, 1), (2, 2), (3, 3)]],
        [.within .v [(0, 0)], .outside (.mod .i 10) [(4, 4), (6, 6), (9, 9)]],
        [.outside .v [(0, 0)], .outside (.mod .f 10) [(4, 4), (6, 6), (9, 9)]]])]),
  (
    ["cs", "sk"],
    [(.few, [[.within .i [(2, 4)], .within .v [(0, 0)]]]),
      (.many, [[.outside .v [(0, 0)]]]),
      (.one, [[.within .i [(1, 1)], .within .v [(0, 0)]]])]),
  (
    ["cy"],
    [(.few, [[.within .n [(3, 3)]]]),
      (.many, [[.within .n [(6, 6)]]]),
      (.one, [[.within .n [(1, 1)]]]),
      (.two, [[.within .n [(2, 2)]]]),
      (.zero, [[.within .n [(0, 0)]]])])]

private def cardinalPart2 : List (List String × Rules) :=
  [
  (
    ["da"],
    [(.one, [
        [.within .n [(1, 1)]],
        [.outside .f [(0, 0)], .within .i [(0, 0), (1, 1)]]])]),
  (
    ["dsb", "hsb"],
    [(.few, [
        [.within .v [(0, 0)], .within (.mod .i 100) [(3, 4)]],
        [.within (.mod .f 100) [(3, 4)]]]),
      (.one, [
        [.within .v [(0, 0)], .within (.mod .i 100) [(1, 1)]],
        [.within (.mod .f 100) [(1, 1)]]]),
      (.two, [
        [.within .v [(0, 0)], .within (.mod .i 100) [(2, 2)]],
        [.within (.mod .f 100) [(2, 2)]]])]),
  (
    ["ff", "fr", "hy", "kab"],
    [(.one, [[.within .i [(0, 0), (1, 1)]]])]),
  (
    ["ga"],
    [(.few, [[.within .i [(3, 6)], .within .f [(0, 0)]]]),
      (.many, [[.within .i [(7, 10)], .within .f [(0, 0)]]]),
      (.one, [[.within .n [(1, 1)]]]),
      (.two, [[.within .n [(2, 2)]]])]),
  (
    ["gd"],
    [(.few, [[.within .i [(3, 10), (13, 19)], .within .f [(0, 0)]]]),
      (.one, [[.within .n [(1, 1), (11, 11)]]]),
      (.two, [[.within .n [(2, 2), (12, 12)]]])]),
  (
    ["gv"],
    [(.few, [
        [.within .v [(0, 0)],
          .within (.mod .i 100) [(0, 0), (20, 20), (40, 40), (60, 60), (80, 80)]]]),
      (.many, [[.outside .v [(0, 0)]]]),
      (.one, [[.within .v [(0, 0)], .within (.mod .i 10) [(1, 1)]]]),
      (.two, [[.within .v [(0, 0)], .within (.mod .i 10) [(2, 2)]]])]),
  (
    ["he", "iw"],
    [(.many, [
        [.within .v [(0, 0)], .outside .i [(0, 10)], .within .f [(0, 0)],
          .within (.mod .i 10) [(0, 0)]]]),
      (.one, [[.within .i [(1, 1)], .within .v [(0, 0)]]]),
      (.two, [[.within .i [(2, 2)], .within .v [(0, 0)]]])]),
  (
    ["is"],
    [(.one, [
        [.within .f [(0, 0)], .within (.mod .i 10) [(1, 1)], .outside (.mod .i 100) [(11, 11)]],
        [.outside .f [(0, 0)]]])]),
  (
    ["iu", "naq", "sat", "se", "sma", "smi", "smj", "smn", "sms"],
    [(.one, [[.within .n [(1, 1)]]]),
      (.two, [[.within .n [(2, 2)]]])]),
  (
    ["ksh"],
    [(.one, [[.within .n [(1, 1)]]]),
      (.zero, [[.within .n [(0, 0)]]])]),
  (
    ["kw"],
    [(.few, [
        [.within (.mod .i 100) [(3, 3), (23, 23), (43, 43), (63, 63), (83, 83)]]]),
      (.many, [
        [.outside .n [(1, 1)],
          .within (.mod .i 100) [(1, 1), (21, 21), (41, 41), (61, 61), (81, 81)]]]),
      (.one, [[.within .n [(1, 1)]]]),
      (.two, [
        [.within (.mod .i 100) [(2, 2), (22, 22), (42, 42), (62, 62), (82, 82)]],
        [.within (.mod .i 1000) [(0, 0)], .within (.mod .i 100000) [(40000, 40000), (60000, 60000),
          (80000, 80000)]],
        [.within (.mod .i 1000) [(0, 0)], .within .i [(1000, 20000)]],
        [.outside .n [(0, 0)], .within (.mod .i 1000000) [(100000, 100000)]]]),
      (.zero, [[.within .n [(0, 0)]]])]),
  (
    ["lag"],
    [(.one, [[.within .i [(0, 0), (1, 1)], .outside .n [(0, 0)]]]),
      (.zero, [[.within .n [(0, 0)]]])])]

private def cardinalPart3 : List (List String × Rules) :=
  [
  (
    ["lt"],
    [(.few, [[.within .i [(2, 9)], .outside .i [(11, 19)]]]),
      (.many, [[.outside .f [(0, 0)]]]),
      (.one, [[.within (.mod .i 10) [(1, 1)], .outside .i [(11, 19)]]])]),
  (
    ["lv", "prg"],
    [(.one, [
        [.within (.mod .i 10) [(1, 1)], .outside (.mod .i 100) [(11, 11)]],
        [.within .v [(2, 2)], .within (.mod .f 10) [(1, 1)], .outside (.mod .f 100) [(11, 11)]],
        [.outside .v [(2, 2)], .within (.mod .f 10) [(1, 1)]]]),
      (.zero, [
        [.within (.mod .i 10) [(0, 0)]],
        [.within .i [(11, 19)]],
        [.within .v [(2, 2)], .within (.mod .f 100) [(11, 19)]]])]),
  (
    ["mk"],
    [(.one, [
        [.within .v [(0, 0)], .within (.mod .i 10) [(1, 1)], .outside (.mod .i 100) [(11, 11)]],
        [.within (.mod .f 10) [(1, 1)], .outside (.mod .f 100) [(11, 11)]]])]),
  (
    ["mo", "ro"],
    [(.few, [
        [.outside .v [(0, 0)]],
        [.within .n [(0, 0)]],
        [.within .i [(2, 19)]]]),
      (.one, [[.within .i [(1, 1)], .within .v [(0, 0)]]])]),
  (
    ["mt"],
    [(.few, [
        [.within .n [(0, 0)]],
        [.within .i [(2, 10)]]]),
      (.many, [[.within .i [(11, 19)]]]),
      (.one, [[.within .n [(1, 1)]]])]),
  (
    ["pl"],
    [(.few, [
        [.within .v [(0, 0)], .within (.mod .i 10) [(2, 4)], .outside (.mod .i 100) [(12, 14)]]]),
      (.many, [
        [.within .v [(0, 0)], .outside .i [(1, 1)], .within (.mod .i 10) [(0, 1)]],
        [.within .v [(0, 0)], .within (.mod .i 10) [(5, 9)]],
        [.within .v [(0, 0)], .within (.mod .i 100) [(12, 14)]]]),
      (.one, [[.within .i [(1, 1)], .within .v [(0, 0)]]])]),
  (
    ["pt"],
    [(.one, [[.within .i [(0, 1)]]])]),
  (
    ["ru", "uk"],
    [(.few, [
        [.within .v [(0, 0)], .within (.mod .i 10) [(2, 4)], .outside (.mod .i 100) [(12, 14)]]]),
      (.many, [
        [.within .v [(0, 0)], .within (.mod .i 10) [(0, 0), (5, 9)]],
        [.within .v [(0, 0)], .within (.mod .i 100) [(11, 14)]]]),
      (.one, [
        [.within .v [(0, 0)], .within (.mod .i 10) [(1, 1)], .outside (.mod .i 100) [(11, 11)]]])]),
  (
    ["shi"],
    [(.few, [[.within .i [(2, 10)], .within .f [(0, 0)]]]),
      (.one, [
        [.within .i [(0, 0)]],
        [.within .n [(1, 1)]]])]),
  (
    ["si"],
    [(.one, [
        [.within .n [(0, 0), (1, 1)]],
        [.within .i [(0, 0)], .within .f [(1, 1)]]])]),
  (
    ["sl"],
    [(.few, [
        [.within .v [(0, 0)], .within (.mod .i 100) [(3, 4)]],
        [.outside .v [(0, 0)]]]),
      (.one, [[.within .v [(0, 0)], .within (.mod .i 100) [(1, 1)]]]),
      (.two, [[.within .v [(0, 0)], .within (.mod .i 100) [(2, 2)]]])]),
  (
    ["tzm"],
    [(.one, [[.within .i [(0, 1), (11, 99)], .within .f [(0, 0)]]])])]

/-- The cardinal rules by language. -/
def cardinalRules : List (List String × Rules) :=
  cardinalPart1 ++ cardinalPart2 ++ cardinalPart3

/-- The rules of a language of the table. -/
def rulesOf? (language : String) : Option Rules :=
  (cardinalRules.find? fun (languages, _) => languages.contains language).map (·.2)

/-- One for the integer one, and other. -/
def englishRules : Rules :=
  [(.one, [[.within .i [(1, 1)], .within .v [(0, 0)]]])]

/-- European Portuguese has the English rules, unlike the rest of Portuguese. -/
def europeanPortuguese : LanguageTag :=
  { language := "pt", region := some "pt" }

/-- The rules for a locale: those of the whole identifier, else of its language, else English. -/
def rulesFor (locale : String) : Rules :=
  match LanguageTag.parse locale with
  | .ok tag =>
    if tag = europeanPortuguese then englishRules else (rulesOf? tag.language).getD englishRules
  | .error _ => englishRules

/-- The cardinal category of the size of a number. -/
def cardinal (locale : String) (x : Float) : Category :=
  (rulesFor locale).category (Operands.of (Binary64.ofFloat x))

end Phrasebook.Plural
