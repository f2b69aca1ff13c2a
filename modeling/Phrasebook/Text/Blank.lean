/-!
# Blank characters

`isBlank` is the property White_Space, `isAsciiBlank` its ASCII part without the vertical tab.
`trim` drops a class of characters from both ends of a text.
-/

namespace Phrasebook.Text

/-- The characters with the property White_Space. -/
def isBlank (c : Char) : Bool :=
  let n := c.toNat
  (9 ≤ n && n ≤ 13) || n == 0x20 || n == 0x85 || n == 0xA0 || n == 0x1680 ||
    (0x2000 ≤ n && n ≤ 0x200A) || n == 0x2028 || n == 0x2029 || n == 0x202F || n == 0x205F ||
    n == 0x3000

/-- Space, tab, line feed, form feed and carriage return. -/
def isAsciiBlank (c : Char) : Bool :=
  let n := c.toNat
  n == 0x20 || n == 9 || n == 10 || n == 12 || n == 13

/-- Without the longest run of `p` at the start and the longest at the end. -/
def trimBy (p : Char → Bool) (cs : List Char) : List Char :=
  (((cs.dropWhile p).reverse).dropWhile p).reverse

/-- Without blank characters at either end. -/
def trim (s : String) : String :=
  String.ofList (trimBy isBlank s.toList)

theorem isBlank_of_isAsciiBlank {c : Char} (h : isAsciiBlank c = true) : isBlank c = true := by
  simp only [isAsciiBlank, Bool.or_eq_true, beq_iff_eq] at h
  simp only [isBlank, Bool.or_eq_true, Bool.and_eq_true, decide_eq_true_eq, beq_iff_eq]
  omega

theorem trimBy_eq_self {p : Char → Bool} {cs : List Char}
    (hd : ∀ c ∈ cs.head?, p c = false) (hl : ∀ c ∈ cs.getLast?, p c = false) :
    trimBy p cs = cs := by
  have front : ∀ ds : List Char, (∀ c ∈ ds.head?, p c = false) → ds.dropWhile p = ds := by
    intro ds h
    cases ds with
    | nil => rfl
    | cons d rest => simp [h d (by simp)]
  unfold trimBy
  rw [front cs hd, front cs.reverse (by simpa using hl), List.reverse_reverse]

end Phrasebook.Text
