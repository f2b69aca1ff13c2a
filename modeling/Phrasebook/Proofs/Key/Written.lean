import Mathlib.Data.List.Basic
import Phrasebook.Key
import Phrasebook.Proofs.Text.Pieces

/-!
# Reading back a key that was written

A key is written as a namespace, a separator and the parts of a name with points between them. As
long as no part has a separator in it and the ends are not blank, `Key.parse_colon` and
`Key.parse_point` read namespace and name back, and `pieces_dotted` reads back the parts.
-/

namespace Phrasebook

namespace Text

variable {sep : Char}

theorem cutFirst_append {a : List Char} (b : List Char) (ha : sep ∉ a) :
    cutFirst sep (a ++ sep :: b) = some (a, b) := by
  induction a with
  | nil => simp [cutFirst]
  | cons c cs ih =>
    have hc : c ≠ sep := fun h => ha (h ▸ List.mem_cons_self)
    rw [List.cons_append, cutFirst, if_neg hc, ih fun h => ha (List.mem_cons_of_mem _ h)]
    rfl

theorem cutLast_append (a : List Char) {b : List Char} (hb : sep ∉ b) :
    cutLast sep (a ++ sep :: b) = some (a, b) := by
  induction a with
  | nil =>
    rw [List.nil_append, cutLast, cutLast_eq_none.2 hb]
    exact if_pos rfl
  | cons c cs ih =>
    rw [List.cons_append, cutLast, ih]

end Text

namespace Key

/-- A part of a key as it can be written: not empty and without a separator. -/
def IsPart (s : String) : Prop :=
  s.toList ≠ [] ∧ ∀ c ∈ s.toList, isSeparator c = false

theorem IsPart.not_mem {s : String} (h : IsPart s) {sep : Char} (hs : isSeparator sep = true) :
    sep ∉ s.toList := by
  intro hmem
  rw [h.2 sep hmem] at hs
  exact Bool.noConfusion hs

def dotted (path : List String) : String :=
  ".".intercalate path

theorem toList_dotted (path : List String) :
    (dotted path).toList = ['.'].intercalate (path.map String.toList) :=
  String.toList_intercalate

theorem dotted_singleton (s : String) : dotted [s] = s :=
  String.intercalate_singleton

theorem toList_dotted_cons (s s' : String) (path : List String) :
    (dotted (s :: s' :: path)).toList = s.toList ++ '.' :: (dotted (s' :: path)).toList := by
  rw [toList_dotted, toList_dotted, List.map_cons, List.map_cons, List.intercalate_cons_cons,
    List.append_assoc, List.singleton_append]

theorem point_mem_dotted (s s' : String) (path : List String) :
    '.' ∈ (dotted (s :: s' :: path)).toList := by
  rw [toList_dotted_cons]
  simp

variable {path : List String}

theorem pieces_dotted (hne : path ≠ []) (hp : ∀ s ∈ path, IsPart s) :
    (Text.pieces '.' (dotted path).toList).map String.ofList = path := by
  have hparts : ∀ p ∈ path.map String.toList, '.' ∉ p := by
    intro p hmem
    obtain ⟨s, hs, rfl⟩ := List.mem_map.1 hmem
    exact (hp s hs).not_mem rfl
  rw [toList_dotted, Text.pieces_intercalate (by simpa using hne) hparts, List.map_map]
  have hid : String.ofList ∘ String.toList = id := by
    funext s
    exact String.ofList_toList
  rw [hid, List.map_id]

theorem colon_not_mem_dotted (hp : ∀ s ∈ path, IsPart s) : ':' ∉ (dotted path).toList := by
  induction path with
  | nil => simp [dotted]
  | cons s path ih =>
    have hhead : ':' ∉ s.toList := (hp s List.mem_cons_self).not_mem rfl
    cases path with
    | nil =>
      rw [dotted_singleton]
      exact hhead
    | cons s' path =>
      have hrest := ih fun r hr => hp r (List.mem_cons_of_mem _ hr)
      rw [toList_dotted_cons]
      simp [hhead, hrest]

theorem head_dotted (hne : path ≠ []) (hp : ∀ s ∈ path, IsPart s) :
    ∃ c ∈ (dotted path).toList.head?, isSeparator c = false := by
  obtain ⟨s, rest, rfl⟩ := List.exists_cons_of_ne_nil hne
  have hpart : IsPart s := hp s List.mem_cons_self
  obtain ⟨c, cs, hcs⟩ := List.exists_cons_of_ne_nil hpart.1
  have hhead : (dotted (s :: rest)).toList.head? = some c := by
    cases rest with
    | nil =>
      rw [dotted_singleton, hcs]
      rfl
    | cons s' rest =>
      rw [toList_dotted_cons, hcs]
      rfl
  exact ⟨c, hhead, hpart.2 c (hcs ▸ List.mem_cons_self)⟩

theorem getLast?_dotted {s : String} (hl : path.getLast? = some s) (hs : s.toList ≠ []) :
    (dotted path).toList.getLast? = s.toList.getLast? := by
  induction path with
  | nil => simp at hl
  | cons s' path ih =>
    cases path with
    | nil =>
      obtain rfl : s' = s := by simpa using hl
      rw [dotted_singleton]
    | cons s'' path =>
      have hrest := ih (by simpa using hl)
      obtain ⟨c, hc⟩ := Option.ne_none_iff_exists'.1 (mt List.getLast?_eq_none_iff.1 hs)
      rw [toList_dotted_cons, List.getLast?_append, List.getLast?_cons, hrest, hc]
      rfl

/-! ### The canonical form -/

theorem collapse_append {a b : List Char} {sep : Char} (ha : ∀ c ∈ a, isSeparator c = false)
    (hb : ∃ d ∈ b.head?, isSeparator d = false) :
    collapse (a ++ sep :: b) = a ++ sep :: collapse b := by
  obtain ⟨d, hd, hsep⟩ := hb
  obtain ⟨ds, rfl⟩ := List.head?_eq_some_iff.1 hd
  induction a with
  | nil =>
    have hrun : ¬ (isSeparator sep = true ∧ sep = d) := by
      rintro ⟨hs, rfl⟩
      rw [hs] at hsep
      exact Bool.noConfusion hsep
    rw [List.nil_append, collapse, if_neg hrun, List.nil_append]
  | cons c cs ih =>
    have hrun : ∀ e, ¬ (isSeparator c = true ∧ c = e) := by
      rintro e ⟨hs, -⟩
      rw [ha c List.mem_cons_self] at hs
      exact Bool.noConfusion hs
    have hrest := ih fun c' hc' => ha c' (List.mem_cons_of_mem _ hc')
    cases cs with
    | nil =>
      rw [List.nil_append] at hrest
      rw [List.singleton_append, collapse, if_neg (hrun sep), hrest]
      rfl
    | cons c' cs =>
      rw [List.cons_append] at hrest
      rw [List.cons_append, List.cons_append, collapse, if_neg (hrun c'), hrest]
      rfl

theorem collapse_eq_self {cs : List Char} (h : ∀ c ∈ cs, isSeparator c = false) :
    collapse cs = cs := by
  induction cs with
  | nil => rfl
  | cons c cs ih =>
    cases cs with
    | nil => rfl
    | cons d cs =>
      have hc : ¬ (isSeparator c = true ∧ c = d) := by simp [h c List.mem_cons_self]
      rw [collapse, if_neg hc, ih fun c' hc' => h c' (List.mem_cons_of_mem _ hc')]

theorem collapse_dotted (hp : ∀ s ∈ path, IsPart s) :
    collapse (dotted path).toList = (dotted path).toList := by
  induction path with
  | nil => rfl
  | cons s path ih =>
    have hhead := (hp s List.mem_cons_self).2
    cases path with
    | nil =>
      rw [dotted_singleton]
      exact collapse_eq_self hhead
    | cons s' path =>
      have hparts : ∀ r ∈ s' :: path, IsPart r := fun r hr => hp r (List.mem_cons_of_mem _ hr)
      rw [toList_dotted_cons, collapse_append hhead (head_dotted (by simp) hparts), ih hparts]

/-- A namespace and a name with parts, as they are written in a key. -/
structure Written (space : String) (path : List String) : Prop where
  isPart : IsPart space
  parts : ∀ s ∈ path, IsPart s
  ne_nil : path ≠ []
  front : ∀ c ∈ space.toList.head?, Text.isBlank c = false
  back : ∀ s ∈ path.getLast?, ∀ c ∈ s.toList.getLast?, Text.isBlank c = false

variable {space : String}

/-- The key is canonical as it is written. -/
theorem Written.canonical (h : Written space path) (sep : Char) :
    Key.canonical (space.toList ++ sep :: (dotted path).toList) =
      space.toList ++ sep :: (dotted path).toList := by
  have hmargin : ∀ c, isSeparator c = false → Text.isBlank c = false → isMargin c = false := by
    intro c hs hb
    rw [isMargin, hs, hb]
    rfl
  obtain ⟨s, hlast⟩ := Option.ne_none_iff_exists'.1 (mt List.getLast?_eq_none_iff.1 h.ne_nil)
  have hs : IsPart s := h.parts s (List.mem_of_getLast? hlast)
  unfold Key.canonical
  rw [collapse_append h.isPart.2 (head_dotted h.ne_nil h.parts), collapse_dotted h.parts]
  refine Text.trimBy_eq_self (fun c hc => ?_) (fun c hc => ?_)
  · rw [List.head?_append_of_ne_nil _ h.isPart.1] at hc
    exact hmargin c (h.isPart.2 c (List.mem_of_mem_head? hc)) (h.front c hc)
  · have hend : (dotted path).toList.getLast? = s.toList.getLast? := getLast?_dotted hlast hs.1
    obtain ⟨d, hd⟩ := Option.ne_none_iff_exists'.1 (mt List.getLast?_eq_none_iff.1 hs.1)
    rw [List.getLast?_append, List.getLast?_cons, hend, hd] at hc
    obtain rfl : d = c := by simpa using hc
    exact hmargin d (hs.2 d (List.mem_of_getLast? hd)) (h.back s hlast d hd)

theorem Written.parse_colon (h : Written space path) (default : Option String) (locale : String) :
    parse default locale (space ++ ":" ++ dotted path) = ⟨space, dotted path⟩ := by
  have hkey : (space ++ ":" ++ dotted path).toList =
      space.toList ++ ':' :: (dotted path).toList := by simp
  have hspace : (space.toList.map fun c => if c = ':' then '/' else c) = space.toList := by
    have hkeep : ∀ c ∈ space.toList, (if c = ':' then '/' else c) = c := by
      intro c hc
      refine if_neg ?_
      rintro rfl
      exact h.isPart.not_mem rfl hc
    rw [List.map_congr_left hkeep, List.map_id']
  unfold parse
  rw [hkey, h.canonical]
  unfold split?
  dsimp only
  rw [Text.cutLast_append _ (colon_not_mem_dotted h.parts)]
  dsimp only
  rw [hspace, String.ofList_toList, String.ofList_toList]

/-- With a point in between, too: the first point divides the key. -/
theorem Written.parse_point (h : Written space path) (default : Option String) (locale : String) :
    parse default locale (space ++ "." ++ dotted path) = ⟨space, dotted path⟩ := by
  have hkey : (space ++ "." ++ dotted path).toList =
      space.toList ++ '.' :: (dotted path).toList := by simp
  have hcolon : ':' ∉ space.toList ++ '.' :: (dotted path).toList := by
    have hspace : ':' ∉ space.toList := h.isPart.not_mem rfl
    have hname := colon_not_mem_dotted h.parts
    simp [hspace, hname]
  unfold parse
  rw [hkey, h.canonical]
  unfold split?
  dsimp only
  rw [Text.cutLast_eq_none.2 hcolon]
  dsimp only
  rw [Text.cutFirst_append _ (h.isPart.not_mem rfl)]
  dsimp only
  rw [String.ofList_toList, String.ofList_toList]

end Key

end Phrasebook
