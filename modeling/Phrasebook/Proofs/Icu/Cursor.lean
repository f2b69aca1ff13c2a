import Mathlib.Logic.Relation
import Phrasebook.Proofs.Icu.Sweep

/-!
# A sweep as a loop

A sweep may also be run in one text, with a cursor that counts bytes: it moves behind the head of a
pattern that is left, and back to the start of a body that takes the place of one. `turn?` is one turn
of this loop, and `sweep_ends` says that the loop ends with the outcome of `resolve`, after no more
turns than the text has opening braces, and that the cursor never stands inside a character.
-/

namespace Phrasebook.Icu

/-! ### Bytes of a text -/

/-- The number of bytes that a text takes. -/
def bytes : List Char → Nat
  | [] => 0
  | c :: cs => c.utf8Size + bytes cs

/-- The texts before and behind a byte position; inside a character and beyond the end there are
none. -/
def cutAt : Nat → List Char → Option (List Char × List Char)
  | 0, cs => some ([], cs)
  | _ + 1, [] => none
  | n + 1, c :: cs =>
    if c.utf8Size ≤ n + 1 then
      (cutAt (n + 1 - c.utf8Size) cs).map fun (a, b) => (c :: a, b)
    else none

/-- The text between two byte positions. -/
def slice? (start stop : Nat) (cs : List Char) : Option (List Char) :=
  (cutAt stop cs).bind fun (front, _) => (cutAt start front).map Prod.snd

/-- The text with another one in the place of what is between two byte positions. -/
def splice? (start stop : Nat) (new cs : List Char) : Option (List Char) :=
  (cutAt start cs).bind fun (front, _) =>
    (cutAt stop cs).map fun (_, back) => front ++ new ++ back

@[simp] theorem bytes_nil : bytes [] = 0 := rfl

@[simp] theorem bytes_cons (c : Char) (cs : List Char) : bytes (c :: cs) = c.utf8Size + bytes cs :=
  rfl

@[simp] theorem bytes_append (a b : List Char) : bytes (a ++ b) = bytes a + bytes b := by
  induction a with
  | nil => simp
  | cons c a ih => rw [List.cons_append, bytes_cons, bytes_cons, ih, Nat.add_assoc]

theorem cutAt_bytes (a b : List Char) : cutAt (bytes a) (a ++ b) = some (a, b) := by
  induction a with
  | nil => cases b <;> rfl
  | cons c a ih =>
    obtain ⟨n, hn⟩ : ∃ n, bytes (c :: a) = n + 1 := by
      have hpos := Char.utf8Size_pos c
      exact ⟨bytes (c :: a) - 1, by rw [bytes_cons]; omega⟩
    have hle : c.utf8Size ≤ n + 1 := by
      rw [← hn, bytes_cons]
      exact Nat.le_add_right _ _
    rw [hn, List.cons_append, cutAt, if_pos hle, ← hn, bytes_cons, Nat.add_sub_cancel_left, ih]
    rfl

theorem slice?_bytes (a b c : List Char) :
    slice? (bytes a) (bytes a + bytes b) (a ++ (b ++ c)) = some b := by
  rw [slice?, ← bytes_append, ← List.append_assoc, cutAt_bytes]
  exact congrArg (Option.map Prod.snd) (cutAt_bytes a b)

theorem splice?_bytes (a b c new : List Char) :
    splice? (bytes a) (bytes a + bytes b) new (a ++ (b ++ c)) = some (a ++ new ++ c) := by
  rw [splice?, cutAt_bytes, ← bytes_append, ← List.append_assoc]
  dsimp only [Option.bind_some]
  rw [cutAt_bytes]
  rfl

/-! ### Turns of the loop -/

/-- A text in work with a byte position in it. -/
structure Cursor where
  text : List Char
  position : Nat
  parked : List (List Char)
  deriving DecidableEq, Repr

/-- What a turn of the loop does. -/
inductive Turn where
  | ended
  | passed (next : Cursor)
  | replaced (next : Cursor)
  deriving DecidableEq, Repr

/-- One turn of the loop, unless it takes the text apart inside a character. -/
def turn? (env : Env) (kind : Kind) (s : Cursor) : Option Turn := do
  if bytes s.text < s.position then
    return .ended
  let (_, rest) ← cutAt s.position s.text
  match findMarker kind rest with
  | none => return .ended
  | some (before, name, head, after) =>
    let start := s.position + bytes before
    let optionsStart := start + bytes head
    match closing 0 after with
    | none => return .passed { s with position := optionsStart }
    | some (inner, _) =>
      let close := optionsStart + bytes inner
      let options ← slice? optionsStart close s.text
      match choose env kind (env.value? name) options with
      | none => return .passed { s with position := optionsStart }
      | some (.body body) =>
        let text ← splice? start (close + 1) body s.text
        return .replaced ⟨text, start, s.parked⟩
      | some (.text text) =>
        let mark := slot s.parked.length
        let spliced ← splice? start (close + 1) mark s.text
        return .replaced ⟨spliced, start + bytes mark, s.parked ++ [text]⟩

/-- A cursor between two texts. -/
def Cursor.between (front back : List Char) (parked : List (List Char)) : Cursor :=
  ⟨front ++ back, bytes front, parked⟩

/-- The position is one between characters of the text, or at an end of it. -/
def Cursor.Valid (s : Cursor) : Prop :=
  ∃ front back, s.text = front ++ back ∧ s.position = bytes front

variable {env : Env} {kind : Kind} {s t : Cursor}

theorem Cursor.valid_between (front back : List Char) (parked : List (List Char)) :
    (Cursor.between front back parked).Valid :=
  ⟨front, back, rfl, rfl⟩

theorem Cursor.Valid.exists_between (h : s.Valid) :
    ∃ front back, s = .between front back s.parked := by
  obtain ⟨front, back, htext, hposition⟩ := h
  refine ⟨front, back, ?_⟩
  rw [Cursor.between, ← htext, ← hposition]

/-- What a turn does between two texts, without counting bytes. -/
theorem turn?_between (env : Env) (kind : Kind) (front back : List Char)
    (parked : List (List Char)) :
    turn? env kind (.between front back parked) = some
      (match findMarker kind back with
      | none => .ended
      | some (before, name, head, after) =>
        match replacement? env kind name after with
        | some (.body body, tail) => .replaced (.between (front ++ before) (body ++ tail) parked)
        | some (.text text, tail) =>
          .replaced (.between (front ++ before ++ slot parked.length) tail (parked ++ [text]))
        | none => .passed (.between (front ++ before ++ head) after parked)) := by
  have hle : ¬ bytes (front ++ back) < bytes front := by
    rw [bytes_append]
    omega
  unfold turn? Cursor.between
  dsimp only
  rw [if_neg hle, cutAt_bytes]
  dsimp only [Option.bind_eq_bind, Option.bind_some]
  cases hm : findMarker kind back with
  | none => rfl
  | some found =>
    obtain ⟨before, name, head, after⟩ := found
    obtain ⟨htext, -⟩ := eq_append_of_findMarker hm
    have hpassed : (⟨front ++ back, bytes front + bytes before + bytes head, parked⟩ : Cursor) =
        .between (front ++ before ++ head) after parked := by
      simp [Cursor.between, htext, Nat.add_assoc]
    dsimp only
    cases hclose : closing 0 after with
    | none =>
      have hnone : replacement? env kind name after = none := by
        rw [replacement?, hclose]
        rfl
      rw [hnone]
      exact congrArg (fun s => some (Turn.passed s)) hpassed
    | some found =>
      obtain ⟨inner, tail⟩ := found
      have hafter := closing_eq hclose
      have hslice : slice? (bytes front + bytes before + bytes head)
          (bytes front + bytes before + bytes head + bytes inner) (front ++ back) = some inner := by
        have hall := slice?_bytes (front ++ before ++ head) inner ('\x7d' :: tail)
        simpa [htext, hafter, Nat.add_assoc] using hall
      have hsplice : ∀ new, splice? (bytes front + bytes before)
          (bytes front + bytes before + bytes head + bytes inner + 1) new (front ++ back) =
            some (front ++ before ++ new ++ tail) := by
        intro new
        have hall := splice?_bytes (front ++ before) (head ++ inner ++ ['\x7d']) tail new
        have hbrace : '\x7d'.utf8Size = 1 := rfl
        simpa [htext, hafter, hbrace, Nat.add_assoc] using hall
      rw [replacement?_of_closing hclose]
      dsimp only
      rw [hslice]
      dsimp only [Option.bind_some]
      cases choose env kind (env.value? name) inner with
      | none => exact congrArg (fun s => some (Turn.passed s)) hpassed
      | some r =>
        cases r with
        | body body => simp [hsplice]
        | text text =>
          dsimp only
          rw [hsplice]
          simp [Nat.add_assoc]

/-- A turn ends the loop, or goes on with fewer opening braces behind the cursor and leaves the outcome
as it is. -/
theorem turn?_cases (env : Env) (kind : Kind) (front back : List Char)
    (parked : List (List Char)) :
    (turn? env kind (.between front back parked) = some .ended ∧
        resolve env kind ⟨back, parked⟩ = ⟨back, parked⟩) ∨
      ∃ front' back' parked',
        (turn? env kind (.between front back parked) =
            some (.passed (.between front' back' parked')) ∨
          turn? env kind (.between front back parked) =
            some (.replaced (.between front' back' parked'))) ∧
        back'.count '\x7b' < back.count '\x7b' ∧
        (resolve env kind ⟨back, parked⟩).behind front =
          (resolve env kind ⟨back', parked'⟩).behind front' := by
  rw [turn?_between, resolve_eq]
  dsimp only
  cases hm : findMarker kind back with
  | none => exact .inl ⟨rfl, rfl⟩
  | some found =>
    obtain ⟨before, name, head, after⟩ := found
    have hlt := count_after hm
    refine .inr ?_
    dsimp only
    cases hr : replacement? env kind name after with
    | none =>
      exact ⟨front ++ before ++ head, after, parked, .inl rfl, hlt, by simp⟩
    | some found =>
      obtain ⟨body | text, tail⟩ := found
      · have hle := count_replacement? hr
        exact ⟨front ++ before, body ++ tail, parked, .inr rfl, by omega, by simp⟩
      · have hle := count_replacement?_text hr
        exact ⟨front ++ before ++ slot parked.length, tail, parked ++ [text], .inr rfl, by omega,
          by simp⟩

/-! ### Runs of the loop -/

/-- A turn of the loop that does not end it. -/
def Moves (env : Env) (kind : Kind) (s t : Cursor) : Prop :=
  turn? env kind s = some (.passed t) ∨ turn? env kind s = some (.replaced t)

/-- The loop ends in a cursor after passing over this many heads and making this many
replacements. -/
inductive Run (env : Env) (kind : Kind) : Cursor → Nat → Nat → Cursor → Prop
  | ended {s : Cursor} (h : turn? env kind s = some .ended) : Run env kind s 0 0 s
  | passed {s t u : Cursor} {heads replacements : Nat} (h : turn? env kind s = some (.passed t))
      (hrun : Run env kind t heads replacements u) : Run env kind s (heads + 1) replacements u
  | replaced {s t u : Cursor} {heads replacements : Nat}
      (h : turn? env kind s = some (.replaced t)) (hrun : Run env kind t heads replacements u) :
      Run env kind s heads (replacements + 1) u

theorem Cursor.Valid.isSome_turn? (h : s.Valid) (env : Env) (kind : Kind) :
    (turn? env kind s).isSome = true := by
  obtain ⟨front, back, hs⟩ := h.exists_between
  rw [hs, turn?_between]
  rfl

theorem Cursor.Valid.moves (h : s.Valid) (hm : Moves env kind s t) : t.Valid := by
  obtain ⟨front, back, hs⟩ := h.exists_between
  rw [hs] at hm
  rcases turn?_cases env kind front back s.parked with ⟨hended, -⟩ |
    ⟨front', back', parked', hturn, -, -⟩
  · rcases hm with hm | hm <;> rw [hended] at hm <;> cases hm
  · rcases hm with hm | hm <;> rcases hturn with hturn | hturn <;> rw [hturn] at hm <;> cases hm <;>
      exact valid_between front' back' parked'

/-- From any place in a text, the loop ends after no more turns than there are opening braces behind
the cursor, with what a sweep makes of the text behind it. -/
theorem exists_run (env : Env) (kind : Kind) (front back : List Char) (parked : List (List Char)) :
    ∃ heads replacements last, Run env kind (.between front back parked) heads replacements last ∧
      heads + replacements ≤ back.count '\x7b' ∧
      (⟨last.text, last.parked⟩ : Work) = (resolve env kind ⟨back, parked⟩).behind front := by
  induction hn : back.count '\x7b' using Nat.strongRecOn generalizing front back parked with
  | ind n ih =>
    subst hn
    rcases turn?_cases env kind front back parked with ⟨hended, hresolve⟩ |
      ⟨front', back', parked', hturn, hlt, hresolve⟩
    · refine ⟨0, 0, _, .ended hended, Nat.zero_le _, ?_⟩
      rw [hresolve]
      rfl
    · obtain ⟨heads, replacements, last, hrun, hle, hlast⟩ :=
        ih _ hlt front' back' parked' rfl
      rw [hresolve]
      rcases hturn with hturn | hturn
      · exact ⟨heads + 1, replacements, last, .passed hturn hrun, by omega, hlast⟩
      · exact ⟨heads, replacements + 1, last, .replaced hturn hrun, by omega, hlast⟩

/-- The loop always ends, with the outcome of the sweep. It makes no more replacements than the text
has opening braces, not even together with the heads that it passes over, and on its way the cursor
stands between characters and no turn takes a character apart. -/
theorem sweep_ends (env : Env) (kind : Kind) (text : List Char) (parked : List (List Char)) :
    (∃ heads replacements last, Run env kind ⟨text, 0, parked⟩ heads replacements last ∧
      heads + replacements ≤ text.count '\x7b' ∧
      (⟨last.text, last.parked⟩ : Work) = resolve env kind ⟨text, parked⟩) ∧
    ∀ s, Relation.ReflTransGen (Moves env kind) ⟨text, 0, parked⟩ s →
      s.Valid ∧ (turn? env kind s).isSome = true := by
  refine ⟨exists_run env kind [] text parked, fun s hs => ?_⟩
  have hvalid : s.Valid := by
    induction hs with
    | refl => exact ⟨[], text, rfl, rfl⟩
    | tail _ hmoves ih => exact ih.moves hmoves
  exact ⟨hvalid, hvalid.isSome_turn? env kind⟩

/-- A large crowd. -/
def crowdEnv : Env where
  locale := "en"
  escape := true
  vars := [("n", .int 1000000)]

-- The text gets longer, the cursor stays behind the first letter and its two bytes.
example :
    turn? crowdEnv .plural ⟨"é\x7bn, plural, other \x7b####\x7d\x7d".toList, 0, []⟩ =
      some (.replaced ⟨"é1000000100000010000001000000".toList, 2, []⟩) := by
  decide +kernel

end Phrasebook.Icu
