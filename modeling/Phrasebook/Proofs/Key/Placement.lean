import Phrasebook.Key.Location
import Phrasebook.Proofs.Key.Retraction
import Phrasebook.Proofs.Text.Pieces

/-!
# The place of a key in a tree of files

`Key.Divided` is the way back from the parts of a key to the key. In a canonical key the only part
that can be empty is the first one behind the last colon, so `ofKey?_divided` can say exactly which
keys have no place. Every other key is laid out without loss: directories, file and property path in
order are its parts.
-/

namespace Phrasebook

namespace Text

theorem suffix_intercalate_concat (between : List Char) (ps : List (List Char)) (p : List Char) :
    p <:+ between.intercalate (ps ++ [p]) := by
  induction ps with
  | nil => simp
  | cons q qs ih =>
    rw [List.cons_append, List.intercalate_cons_of_ne_nil (by simp)]
    exact ih.trans (List.suffix_append _ _)

theorem map_toList_ofList (ps : List (List Char)) :
    (ps.map String.ofList).map String.toList = ps := by
  rw [List.map_map]
  exact List.map_id'' (fun _ => String.toList_ofList) ps

theorem map_ofList_toList (ss : List String) : (ss.map String.toList).map String.ofList = ss := by
  rw [List.map_map]
  exact List.map_id'' (fun _ => String.ofList_toList) ss

theorem dropLast_concat_getLastD {α : Type} {xs : List α} (h : xs ≠ []) (x : α) :
    xs.dropLast ++ [xs.getLastD x] = xs := by
  rw [List.getLastD_eq_getLast?, List.getLast?_eq_some_getLast h, Option.getD_some,
    List.dropLast_append_getLast h]

end Text

namespace Key

/-- The key is `spaces`, each with a colon behind it, and then `path` with points between its
parts. -/
structure Divided (key : String) (spaces path : List String) : Prop where
  text : key = ":".intercalate (spaces ++ [dotted path])
  colon : ∀ s ∈ spaces ++ [dotted path], ':' ∉ s.toList
  point : ∀ s ∈ path, '.' ∉ s.toList
  ne_nil : path ≠ []

variable {key : String} {spaces path : List String}

namespace Divided

theorem toList_eq (h : Divided key spaces path) :
    key.toList = [':'].intercalate (spaces.map String.toList ++ [(dotted path).toList]) := by
  rw [h.text, String.toList_intercalate, List.map_append]
  rfl

theorem pieces_colon (h : Divided key spaces path) :
    (Text.pieces ':' key.toList).map String.ofList = spaces ++ [dotted path] := by
  have hparts : ∀ p ∈ (spaces ++ [dotted path]).map String.toList, ':' ∉ p := by
    intro p hp
    obtain ⟨s, hs, rfl⟩ := List.mem_map.1 hp
    exact h.colon s hs
  have hpieces := Text.pieces_intercalate (by simp) hparts
  rw [List.map_append, List.map_singleton, ← h.toList_eq] at hpieces
  rw [hpieces, List.map_append, Text.map_ofList_toList]
  simp

theorem pieces_point (h : Divided key spaces path) :
    (Text.pieces '.' (dotted path).toList).map String.ofList = path := by
  have hparts : ∀ p ∈ path.map String.toList, '.' ∉ p := by
    intro p hp
    obtain ⟨s, hs, rfl⟩ := List.mem_map.1 hp
    exact h.point s hs
  rw [toList_dotted, Text.pieces_intercalate (by simpa using h.ne_nil) hparts,
    Text.map_ofList_toList]

/-- A key has no other parts. -/
theorem unique {spaces' path' : List String} (h : Divided key spaces path)
    (h' : Divided key spaces' path') : spaces' = spaces ∧ path' = path := by
  obtain ⟨hspaces, hlast⟩ := List.append_inj' (h'.pieces_colon.symm.trans h.pieces_colon) rfl
  refine ⟨hspaces, ?_⟩
  rw [← h'.pieces_point, ← h.pieces_point, (List.cons.inj hlast).1]

theorem suffix (h : Divided key spaces path) : (dotted path).toList <:+ key.toList := by
  rw [h.toList_eq]
  exact Text.suffix_intercalate_concat _ _ _

theorem infix_of_mem (h : Divided key spaces path) {s : String} (hs : s ∈ spaces ++ path) :
    s.toList <:+: key.toList := by
  rcases List.mem_append.1 hs with hs | hs
  · rw [h.toList_eq]
    exact Text.infix_intercalate (List.mem_append_left _ (List.mem_map_of_mem hs)) _
  · have hpath : s.toList <:+: (dotted path).toList := by
      rw [toList_dotted]
      exact Text.infix_intercalate (List.mem_map_of_mem hs) _
    exact hpath.trans h.suffix.isInfix

end Divided

theorem exists_divided (key : String) : ∃ spaces path, Divided key spaces path := by
  let segments := Text.pieces ':' key.toList
  have hne : segments ≠ [] := Text.pieces_ne_nil ':' key.toList
  let last := segments.getLast hne
  let path := (Text.pieces '.' last).map String.ofList
  have hlast : dotted path = String.ofList last := by
    rw [← String.toList_inj, toList_dotted, Text.map_toList_ofList, Text.intercalate_pieces,
      String.toList_ofList]
  have hsegments : segments.dropLast.map String.ofList ++ [dotted path] =
      segments.map String.ofList := by
    conv_rhs => rw [← List.dropLast_append_getLast hne]
    rw [hlast, List.map_append]
    rfl
  refine ⟨segments.dropLast.map String.ofList, path, ?_, ?_, ?_, ?_⟩
  · rw [hsegments, ← String.toList_inj, String.toList_intercalate, Text.map_toList_ofList]
    exact (Text.intercalate_pieces ':' _).symm
  · intro s hs
    rw [hsegments] at hs
    obtain ⟨p, hp, rfl⟩ := List.mem_map.1 hs
    rw [String.toList_ofList]
    exact Text.notMem_of_mem_pieces hp
  · intro s hs
    obtain ⟨p, hp, rfl⟩ := List.mem_map.1 hs
    rw [String.toList_ofList]
    exact Text.notMem_of_mem_pieces hp
  · simpa [path] using Text.pieces_ne_nil '.' last

/-! ### Empty parts of a canonical key -/

theorem lone_of_apart {cs : List Char} {sep : Char} (hs : isSeparator sep = true)
    (h : cs.IsChain Apart) : cs.IsChain fun c d => ¬ (c = sep ∧ d = sep) := by
  refine h.imp fun c d hapart => ?_
  rintro ⟨rfl, rfl⟩
  exact hapart ⟨hs, rfl⟩

theorem ne_of_isMargin {c sep : Char} (hs : isSeparator sep = true) (hc : isMargin c = false) :
    c ≠ sep := by
  rintro rfl
  rw [isSeparator_of_isMargin hc] at hs
  exact Bool.noConfusion hs

/-- The part behind the last colon may begin with a point, and there is no other empty part. -/
theorem Divided.empty_mem_iff (h : Divided key spaces path) (hc : IsCanonical key.toList)
    (hne : key ≠ "") :
    "" ∈ spaces ++ path ↔ (dotted path).toList.head? = some '.' := by
  have hkey : key.toList ≠ [] := by simpa using hne
  have hempty : ∀ ss : List (List Char), "" ∈ ss.map String.ofList ↔ [] ∈ ss := by
    intro ss
    rw [List.mem_map]
    refine ⟨fun ⟨p, hp, he⟩ => ?_, fun hmem => ⟨[], hmem, rfl⟩⟩
    obtain rfl : p = [] := by simpa using congrArg String.toList he
    exact hp
  have hsegments : "" ∉ spaces ++ [dotted path] := by
    rw [← h.pieces_colon, hempty, Text.nil_mem_pieces_iff (lone_of_apart rfl hc.apart)
      fun c hlast => ne_of_isMargin rfl (hc.back c hlast)]
    rintro (hnil | hfirst)
    · exact hkey hnil
    · exact ne_of_isMargin rfl (hc.front ':' hfirst) rfl
  have hspaces : "" ∉ spaces := fun hmem => hsegments (List.mem_append_left _ hmem)
  have hlast : (dotted path).toList ≠ [] := by
    intro hnil
    refine hsegments (List.mem_append_right _ (List.mem_singleton.2 ?_))
    rw [← String.toList_inj, hnil]
    rfl
  have hback : ∀ c ∈ (dotted path).toList.getLast?, c ≠ '.' := by
    intro c hmem
    obtain ⟨before, hbefore⟩ := h.suffix
    refine ne_of_isMargin rfl (hc.back c ?_)
    rw [← hbefore, List.getLast?_append, hmem]
    rfl
  have hsuffix : (dotted path).toList.IsChain Apart := List.IsChain.infix hc.apart h.suffix.isInfix
  have hlone := lone_of_apart (show isSeparator '.' = true from rfl) hsuffix
  rw [List.mem_append, or_iff_right hspaces]
  conv_lhs => rw [← h.pieces_point]
  rw [hempty, Text.nil_mem_pieces_iff hlone hback, or_iff_right hlast]

end Key

namespace Location

variable {key : String} {spaces path : List String}

/-- A key is laid out by its parts. -/
theorem ofKey?_eq (h : Key.Divided (Key.normalize key) spaces path) :
    ofKey? key =
      if Key.normalize key = "" then .error (.empty key)
      else if "" ∈ spaces ++ path then .error (.emptySegment key)
      else .ok ⟨(place spaces path).1, (place spaces path).2.1, (place spaces path).2.2, key⟩ := by
  have hsegments := h.pieces_colon
  have hpath := h.pieces_point
  rw [Key.toList_normalize] at hsegments
  have hempty : (Key.canonical key.toList).isEmpty = true ↔ Key.normalize key = "" := by
    rw [List.isEmpty_iff, ← Key.toList_normalize]
    simp
  have hany : (spaces ++ path).any (· == "") = true ↔ "" ∈ spaces ++ path := by
    simp [List.any_eq_true]
  unfold ofKey?
  simp only [hsegments, List.dropLast_concat, List.getLastD_concat, hpath, hempty, hany]

theorem place_nil (h : path ≠ []) :
    place [] path = ([], if path.length = 1 then commonFile else globalFile, path) := by
  match path, h with
  | [p], _ => rfl
  | p :: q :: ps, _ => rfl

/-- Nothing is lost, and the property path takes more than one part only behind a single colon. -/
theorem place_of_ne_nil (hs : spaces ≠ []) (hp : path ≠ []) :
    (place spaces path).1 ++ (place spaces path).2.1 :: (place spaces path).2.2 = spaces ++ path ∧
      (place spaces path).2.2.length =
        if spaces.length = 1 ∧ 1 < path.length then path.length - 1 else 1 := by
  match spaces, path, hs, hp with
  | d :: ds, [p], _, _ =>
    have hfile := Text.dropLast_concat_getLastD (List.cons_ne_nil d ds) ""
    refine ⟨?_, by simp [place]⟩
    calc (d :: ds).dropLast ++ (d :: ds).getLastD "" :: [p]
        = (d :: ds).dropLast ++ [(d :: ds).getLastD ""] ++ [p] := by simp
      _ = d :: ds ++ [p] := by rw [hfile]
  | [d], p :: q :: ps, _, _ => exact ⟨rfl, by simp [place]⟩
  | d :: e :: ds, p :: q :: ps, _, _ =>
    have hproperty := Text.dropLast_concat_getLastD (List.cons_ne_nil p (q :: ps)) ""
    have hrest : (p :: q :: ps).dropLast ≠ [] := List.cons_ne_nil p _
    have hfile := Text.dropLast_concat_getLastD hrest ""
    refine ⟨?_, by simp [place]⟩
    calc (d :: e :: ds) ++ (p :: q :: ps).dropLast.dropLast ++
          (p :: q :: ps).dropLast.getLastD "" :: [(p :: q :: ps).getLastD ""]
        = (d :: e :: ds) ++ ((p :: q :: ps).dropLast.dropLast ++
            [(p :: q :: ps).dropLast.getLastD ""] ++ [(p :: q :: ps).getLastD ""]) := by simp
      _ = (d :: e :: ds) ++ p :: q :: ps := by rw [hfile, hproperty]

theorem fileNames_ne_empty : commonFile ≠ "" ∧ globalFile ≠ "" := by
  decide

/-- The three things that can come of a key. -/
theorem ofKey?_cases (h : Key.Divided (Key.normalize key) spaces path) :
    let first := (Key.dotted path).toList.head?
    (Key.normalize key = "" ∧ first ≠ some '.' ∧ ofKey? key = .error (.empty key)) ∨
      (Key.normalize key ≠ "" ∧ first = some '.' ∧ ofKey? key = .error (.emptySegment key)) ∨
      (Key.normalize key ≠ "" ∧ first ≠ some '.' ∧ "" ∉ spaces ++ path ∧
        ofKey? key =
          .ok ⟨(place spaces path).1, (place spaces path).2.1, (place spaces path).2.2, key⟩) := by
  intro first
  have hplace := ofKey?_eq h
  by_cases hn : Key.normalize key = ""
  · have hnil : (Key.dotted path).toList = [] := by
      have hsuffix := h.suffix
      rw [hn] at hsuffix
      exact List.suffix_nil.1 hsuffix
    rw [if_pos hn] at hplace
    exact .inl ⟨hn, by simp [first, hnil], hplace⟩
  · have hmem := h.empty_mem_iff (Key.isCanonical_normalize key) hn
    rw [if_neg hn] at hplace
    by_cases hfirst : first = some '.'
    · rw [if_pos (hmem.2 hfirst)] at hplace
      exact .inr (.inl ⟨hn, hfirst, hplace⟩)
    · have hparts := mt hmem.1 hfirst
      rw [if_neg hparts] at hplace
      exact .inr (.inr ⟨hn, hfirst, hparts, hplace⟩)

/-- A key has no place exactly if nothing is left of it in canonical form, or the part behind its
last colon begins with a point. Otherwise directories, file and property path in order are the parts
of the key; a key without a colon is a property path in a file of its own. No part of the place is
empty. -/
theorem ofKey?_divided (key : String) :
    ∃ spaces path, Key.Divided (Key.normalize key) spaces path ∧
      (∀ spaces' path', Key.Divided (Key.normalize key) spaces' path' →
        spaces' = spaces ∧ path' = path) ∧
      (ofKey? key = .error (.empty key) ↔ Key.normalize key = "") ∧
      (ofKey? key = .error (.emptySegment key) ↔
        (Key.dotted path).toList.head? = some '.') ∧
      ((∃ e, ofKey? key = .error e) ↔
        Key.normalize key = "" ∨ (Key.dotted path).toList.head? = some '.') ∧
      ∀ l, ofKey? key = .ok l →
        (spaces ≠ [] → l.directories ++ l.file :: l.property = spaces ++ path ∧
          l.property.length =
            if spaces.length = 1 ∧ 1 < path.length then path.length - 1 else 1) ∧
        (spaces = [] → l.directories = [] ∧ l.property = path ∧
          l.file = if path.length = 1 then commonFile else globalFile) ∧
        (∀ s ∈ l.directories ++ l.file :: l.property, s ≠ "") ∧
        l.property ≠ [] ∧ l.source = key := by
  obtain ⟨spaces, path, h⟩ := Key.exists_divided (Key.normalize key)
  refine ⟨spaces, path, h, fun _ _ h' => h.unique h', ?_⟩
  rcases ofKey?_cases h with ⟨hn, hfirst, hkey⟩ | ⟨hn, hfirst, hkey⟩ | ⟨hn, hfirst, hparts, hkey⟩
  · simp [hkey, hn, hfirst]
  · simp [hkey, hn, hfirst]
  · refine ⟨by simp [hkey, hn], by simp [hkey, hfirst], by simp [hkey, hn, hfirst], ?_⟩
    intro l hl
    obtain rfl := Except.ok.inj (hkey.symm.trans hl)
    have hpath : path ≠ [] := h.ne_nil
    have hne : ∀ s ∈ spaces ++ path, s ≠ "" := fun s hs he => hparts (he ▸ hs)
    by_cases hs : spaces = []
    · subst hs
      have hfile : (if path.length = 1 then commonFile else globalFile) ≠ "" := by
        split
        · exact fileNames_ne_empty.1
        · exact fileNames_ne_empty.2
      rw [place_nil hpath]
      exact ⟨fun hnil => absurd rfl hnil, fun _ => ⟨rfl, rfl, rfl⟩,
        List.forall_mem_cons.2 ⟨hfile, hne⟩, hpath, rfl⟩
    · obtain ⟨hall, hlength⟩ := place_of_ne_nil hs hpath
      refine ⟨fun _ => ⟨hall, hlength⟩, fun hnil => absurd hnil hs, ?_, ?_, rfl⟩
      · rw [hall]
        exact hne
      · refine List.length_pos_iff.1 ?_
        dsimp only
        rw [hlength]
        split <;> omega

/-- Behind several colons all points but the last lead to directories and the file. -/
theorem ofKey?_divided_meal :
    let key := " app:features::orders:meal.orderComponent..title "
    let spaces := ["app", "features", "orders"]
    let path := ["meal", "orderComponent", "title"]
    let l : Location := ⟨["app", "features", "orders", "meal"], "orderComponent", ["title"], key⟩
    Key.Divided (Key.normalize key) spaces path ∧ ofKey? key = .ok l ∧ spaces ≠ [] ∧
      l.directories ++ l.file :: l.property = spaces ++ path ∧
      (∀ s ∈ l.directories ++ l.file :: l.property, s ≠ "") ∧ l.source = key := by
  intro key spaces path l
  have hdivided : Key.Divided (Key.normalize key) spaces path :=
    ⟨by decide +kernel, by decide +kernel, by decide +kernel, by decide⟩
  have hl : ofKey? key = .ok l := by decide +kernel
  obtain ⟨spaces', path', -, hunique, -, -, -, hlaid⟩ := ofKey?_divided key
  obtain ⟨rfl, rfl⟩ := hunique spaces path hdivided
  obtain ⟨hcolon, -, hne, -, hsource⟩ := hlaid l hl
  exact ⟨hdivided, hl, by decide, (hcolon (by decide)).1, hne, hsource⟩

end Location

end Phrasebook
