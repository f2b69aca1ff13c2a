import Phrasebook.Proofs.Text.Pieces
import Phrasebook.Store

/-!
# What a store keeps

`Store.get_setCatalog` and `Store.get_set` say what the two ways to change a store do to every
look-up. A text that is stored under a whole name takes the place of a group of that name, so that
nothing is found through the group any more.
-/

namespace Phrasebook

namespace Catalog

/-- The group that the walk along a name with points begins in. -/
def firstGroup? (name : String) : Option String :=
  if '.' ∈ name.toList then ((Text.pieces '.' name.toList).head?).map String.ofList else none

/-- The text under a whole name. -/
def flat? (c : Catalog) (name : String) : Option String :=
  (Dictionary.find? name c).bind Entry.text?

theorem find?_eq (c : Catalog) (name : String) :
    c.find? name = (c.flat? name).or (c.walk? name) := by
  unfold find? flat?
  split
  · rename_i text h
    rw [h, Option.some_or]
  · rename_i h
    rw [h, Option.none_or]

theorem flat?_insert (c : Catalog) (name text other : String) :
    flat? (Dictionary.insert name (.text text) c) other =
      if other = name then some text else c.flat? other := by
  unfold flat?
  rw [Dictionary.find?_insert]
  split <;> rfl

/-- A text in the place of a group ends every walk through it. -/
theorem walk?_insert (c : Catalog) (name text other : String) :
    walk? (Dictionary.insert name (.text text) c) other =
      if firstGroup? other = some name then none else c.walk? other := by
  unfold walk? firstGroup?
  by_cases hdot : '.' ∈ other.toList
  · obtain ⟨p, q, ps, hp⟩ := Text.pieces_of_mem hdot
    simp only [if_pos hdot, hp, List.map_cons, List.head?_cons, Option.map_some,
      Option.some.injEq]
    rw [Entry.follow, Entry.follow, Dictionary.find?_insert]
    by_cases hname : String.ofList p = name
    · rw [if_pos hname, if_pos hname]
      rfl
    · rw [if_neg hname, if_neg hname]
  · simp only [if_neg hdot, ite_self]

/-- What a text under a whole name does to every look-up. -/
theorem find?_insert (c : Catalog) (name text other : String) :
    find? (Dictionary.insert name (.text text) c) other =
      if other = name then some text
      else if firstGroup? other = some name then c.flat? other
      else c.find? other := by
  rw [find?_eq, flat?_insert, walk?_insert]
  by_cases hname : other = name
  · rw [if_pos hname, if_pos hname, Option.some_or]
  · rw [if_neg hname, if_neg hname]
    split
    · rw [Option.or_none]
    · rw [find?_eq]

end Catalog

namespace Store

/-- The text that a namespace has under a whole name. -/
def flat? (s : Store) (locale space name : String) : Option String :=
  (s.catalog? locale space).bind (Catalog.flat? · name)

theorem get_of_flat? {s : Store} {l n k v : String} (h : s.flat? l n k = some v) :
    s.get l n k = some v := by
  obtain ⟨c, hc, hv⟩ := Option.bind_eq_some_iff.1 h
  unfold get
  rw [hc, Option.bind_some, Catalog.find?_eq, hv, Option.some_or]

/-- A name without a point leads through no groups. -/
theorem get_eq_none {s : Store} {l n k : String} (h : s.flat? l n k = none)
    (hk : '.' ∉ k.toList) : s.get l n k = none := by
  unfold flat? at h
  unfold get
  cases hc : s.catalog? l n with
  | none => rfl
  | some c =>
    rw [hc, Option.bind_some] at h
    rw [Option.bind_some, Catalog.find?_eq, h, Option.none_or]
    exact if_neg hk

theorem catalog?_setCatalog (s : Store) (l n : String) (c : Catalog) (l' n' : String) :
    (s.setCatalog l n c).catalog? l' n' =
      if l' = l ∧ n' = n then some c else s.catalog? l' n' := by
  unfold catalog? setCatalog
  rw [Dictionary.find?_insert]
  by_cases hl : l' = l
  · subst hl
    rw [if_pos rfl, Option.bind_some, Dictionary.find?_insert]
    by_cases hn : n' = n
    · rw [if_pos hn, if_pos ⟨rfl, hn⟩]
    · rw [if_neg hn, if_neg fun h => hn h.2]
      cases Dictionary.find? l' s <;> rfl
  · rw [if_neg hl, if_neg fun h => hl h.1]

theorem get_setCatalog (s : Store) (l n : String) (c : Catalog) (l' n' k : String) :
    (s.setCatalog l n c).get l' n' k =
      if l' = l ∧ n' = n then c.find? k else s.get l' n' k := by
  unfold get
  rw [catalog?_setCatalog]
  split <;> rfl

/-- A text is found under the name that it was stored under, and outside of a group of this name
nothing else changes. -/
theorem get_set (s : Store) (l n name text l' n' k : String) :
    (s.set l n name text).get l' n' k =
      if l' = l ∧ n' = n then
        if k = name then some text
        else if Catalog.firstGroup? k = some name then s.flat? l n k
        else s.get l n k
      else s.get l' n' k := by
  unfold set
  rw [get_setCatalog]
  split
  · rw [Catalog.find?_insert]
    unfold flat? get
    cases s.catalog? l n with
    | some c => rfl
    | none =>
      have hempty : Catalog.find? [] k = none := by
        rw [Catalog.find?_eq]
        unfold Catalog.walk?
        by_cases hdot : '.' ∈ k.toList
        · obtain ⟨p, q, ps, hp⟩ := Text.pieces_of_mem hdot
          rw [if_pos hdot, hp, List.map_cons, Entry.follow]
          rfl
        · rw [if_neg hdot]
          rfl
      rw [Option.getD_none, hempty]
      rfl
  · rfl

end Store

end Phrasebook
