import Phrasebook.Number.Reading

/-!
# Dates and times

Calendar dates and times of day in the form of RFC 3339. Settings hold none, so a moment is only
recognised and its value is not kept.
-/

namespace Phrasebook.Toml

/-- The number of days of a month. -/
def daysIn (year month : Nat) : Nat :=
  if month = 2 then
    if (year % 4 = 0 ∧ year % 100 ≠ 0) ∨ year % 400 = 0 then 29 else 28
  else if month ∈ [4, 6, 9, 11] then 30
  else 31

/-- What follows a date at the start of the text. -/
def afterDate? : List Char → Option (List Char)
  | y₁ :: y₂ :: y₃ :: y₄ :: '-' :: m₁ :: m₂ :: '-' :: d₁ :: d₂ :: rest => do
    let year ← readDigits? [y₁, y₂, y₃, y₄]
    let month ← readDigits? [m₁, m₂]
    let day ← readDigits? [d₁, d₂]
    if 1 ≤ month ∧ month ≤ 12 ∧ 1 ≤ day ∧ day ≤ daysIn year month then some rest else none
  | _ => none

/-- What follows a fraction of a second at the start of the text. -/
def afterFraction? : List Char → Option (List Char)
  | '.' :: rest =>
    match spanDigits rest with
    | ([], _) => none
    | (_, rest) => some rest
  | rest => some rest

/-- What follows a time at the start of the text; a minute may have a leap second. -/
def afterTime? : List Char → Option (List Char)
  | h₁ :: h₂ :: ':' :: m₁ :: m₂ :: ':' :: s₁ :: s₂ :: rest => do
    let hour ← readDigits? [h₁, h₂]
    let minute ← readDigits? [m₁, m₂]
    let second ← readDigits? [s₁, s₂]
    if hour ≤ 23 ∧ minute ≤ 59 ∧ second ≤ 60 then afterFraction? rest else none
  | _ => none

/-- Whether the text is empty or a distance from universal time. -/
def isOffset : List Char → Bool
  | [] => true
  | [c] => c = 'Z' || c = 'z'
  | [sign, h₁, h₂, ':', m₁, m₂] =>
    (sign = '+' || sign = '-') &&
      (readDigits? [h₁, h₂]).any (· ≤ 23) && (readDigits? [m₁, m₂]).any (· ≤ 59)
  | _ => false

/-- Whether the text is a date, a time, or a date with a time. -/
def isMoment (cs : List Char) : Bool :=
  match afterDate? cs with
  | some [] => true
  | some (c :: rest) =>
    (c = 'T' || c = 't' || c = ' ') && (afterTime? rest).any isOffset
  | none => (afterTime? cs).any List.isEmpty

end Phrasebook.Toml
