import Phrasebook.Proofs.Key.Placement

/-!
# Paths of files

The path of a file is made of its directories and its name, one `push` after the other. No name in
it goes back to the directory above, since no key has two points in a row. A segment with a slash at
its start makes the path begin at the root: `filePath_route` says that all other paths keep every
segment and lead, from whatever directory, to a place inside it.
-/

namespace Phrasebook

namespace Location

variable {key : String} {l : Location} {path segment : List Char} {segments : List (List Char)}

/-- The path begins at the root. -/
def isRooted (path : List Char) : Bool :=
  path.head? == some '/'

/-- What stands between the slashes of a path; repeated slashes add nothing. -/
def names (path : List Char) : List (List Char) :=
  (Text.pieces '/' path).filter (· != [])

/-- The place after one more name: a single point stays, two points go back. -/
def enter (place : List (List Char)) (name : List Char) : List (List Char) :=
  if name = ['.'] then place
  else if name = ['.', '.'] then place.dropLast
  else place ++ [name]

/-- The place that a path leads to. -/
def destination (path : List Char) : List (List Char) :=
  (names path).foldl enter []

/-- The segments that the path of the file is made of. -/
def route (l : Location) : List (List Char) :=
  (l.directories ++ [l.file]).map String.toList

theorem toList_filePath (l : Location) : l.filePath.toList = l.route.foldl push [] := by
  rw [filePath, String.toList_ofList, route, List.foldl_map]

/-! ### One segment more -/

theorem names_append_slash (a b : List Char) : names (a ++ '/' :: b) = names a ++ names b := by
  rw [names, Text.pieces_append_sep, List.filter_append]
  rfl

theorem push_of_isRooted (h : isRooted segment = true) (path : List Char) :
    push path segment = segment := by
  rw [push, if_pos (by simpa [isRooted] using h)]

/-- The segment is put behind the path, with a slash in between where there is none. -/
theorem push_cases (h : isRooted segment = false) (path : List Char) :
    (path = [] ∧ push path segment = segment) ∨
      (∃ front, path = front ++ ['/'] ∧ push path segment = front ++ '/' :: segment) ∨
      (path ≠ [] ∧ push path segment = path ++ '/' :: segment) := by
  have hsegment : segment.head? ≠ some '/' := by simpa [isRooted] using h
  by_cases hnil : path = []
  · subst hnil
    rw [push, if_neg hsegment, if_pos (.inl rfl)]
    exact .inl ⟨rfl, rfl⟩
  by_cases hslash : path.getLast? = some '/'
  · obtain ⟨front, rfl⟩ := List.getLast?_eq_some_iff.1 hslash
    rw [push, if_neg hsegment, if_pos (.inr hslash), List.append_assoc]
    exact .inr (.inl ⟨front, rfl, rfl⟩)
  · rw [push, if_neg hsegment, if_neg (by simp [hnil, hslash])]
    exact .inr (.inr ⟨hnil, rfl⟩)

theorem names_push (h : isRooted segment = false) (path : List Char) :
    names (push path segment) = names path ++ names segment := by
  rcases push_cases h path with ⟨rfl, hpush⟩ | ⟨front, rfl, hpush⟩ | ⟨-, hpush⟩
  · rw [hpush]
    rfl
  · have hfront : names (front ++ ['/']) = names front :=
      (names_append_slash front []).trans (List.append_nil _)
    rw [hpush, names_append_slash, hfront]
  · rw [hpush, names_append_slash]

theorem isRooted_push (path segment : List Char) :
    isRooted (push path segment) = (isRooted path || isRooted segment) := by
  cases hs : isRooted segment with
  | true => rw [push_of_isRooted hs, hs, Bool.or_true]
  | false =>
    rw [Bool.or_false]
    rcases push_cases hs path with ⟨rfl, hpush⟩ | ⟨front, rfl, hpush⟩ | ⟨hne, hpush⟩
    · rw [hpush, hs]
      rfl
    · rw [hpush]
      cases front <;> rfl
    · obtain ⟨c, cs, rfl⟩ := List.exists_cons_of_ne_nil hne
      rw [hpush]
      rfl

theorem apart_slash (c : Char) : Key.Apart c '/' ∧ Key.Apart '/' c := by
  have hslash : Key.isSeparator '/' = false := rfl
  refine ⟨?_, fun h => by simp [hslash] at h⟩
  rintro ⟨hc, rfl⟩
  rw [hslash] at hc
  exact Bool.noConfusion hc

theorem isChain_append_slash {a b : List Char} (ha : a.IsChain Key.Apart)
    (hb : b.IsChain Key.Apart) : (a ++ '/' :: b).IsChain Key.Apart := by
  refine List.isChain_append.2 ⟨ha, List.isChain_cons.2 ⟨fun c _ => (apart_slash c).2, hb⟩, ?_⟩
  intro c _ d hd
  obtain rfl : '/' = d := Option.some.inj hd
  exact (apart_slash c).1

theorem isChain_push (hp : path.IsChain Key.Apart) (hs : segment.IsChain Key.Apart) :
    (push path segment).IsChain Key.Apart := by
  cases hr : isRooted segment with
  | true =>
    rw [push_of_isRooted hr]
    exact hs
  | false =>
    rcases push_cases hr path with ⟨-, hpush⟩ | ⟨front, rfl, hpush⟩ | ⟨-, hpush⟩
    · rw [hpush]
      exact hs
    · rw [hpush]
      exact isChain_append_slash (List.isChain_append.1 hp).1 hs
    · rw [hpush]
      exact isChain_append_slash hp hs

/-! ### All segments -/

theorem isRooted_foldl_push (segments : List (List Char)) (path : List Char) :
    isRooted (segments.foldl push path) = (isRooted path || segments.any isRooted) := by
  induction segments generalizing path with
  | nil => simp
  | cons segment segments ih =>
    rw [List.foldl_cons, ih, isRooted_push, List.any_cons, Bool.or_assoc]

theorem names_foldl_push (h : ∀ s ∈ segments, isRooted s = false) (path : List Char) :
    names (segments.foldl push path) = names path ++ segments.flatMap names := by
  induction segments generalizing path with
  | nil => simp
  | cons segment segments ih =>
    rw [List.foldl_cons, ih (fun s hs => h s (List.mem_cons_of_mem _ hs)),
      names_push (h segment List.mem_cons_self), List.flatMap_cons, List.append_assoc]

theorem isChain_foldl_push (hp : path.IsChain Key.Apart)
    (hs : ∀ s ∈ segments, s.IsChain Key.Apart) : (segments.foldl push path).IsChain Key.Apart := by
  induction segments generalizing path with
  | nil => exact hp
  | cons segment segments ih =>
    exact ih (isChain_push hp (hs segment List.mem_cons_self))
      fun s hmem => hs s (List.mem_cons_of_mem _ hmem)

/-- What stands before a segment that begins with a slash is lost. -/
theorem foldl_push_of_isRooted (h : isRooted segment = true) (before after : List (List Char))
    (path : List Char) :
    (before ++ segment :: after).foldl push path = after.foldl push segment := by
  rw [List.foldl_append, List.foldl_cons, push_of_isRooted h]

/-- Without a way back, the names of a path lead on from where they start. -/
theorem foldl_enter {ns : List (List Char)} (h : ['.', '.'] ∉ ns) (place : List (List Char)) :
    ns.foldl enter place = place ++ ns.filter (· != ['.']) := by
  induction ns generalizing place with
  | nil => simp
  | cons n ns ih =>
    simp only [List.mem_cons, not_or] at h
    rw [List.foldl_cons, ih h.2, enter, if_neg (Ne.symm h.1)]
    by_cases hn : n = ['.']
    · simp [hn]
    · simp [hn]

theorem back_notMem_names (h : path.IsChain Key.Apart) : ['.', '.'] ∉ names path := by
  intro hmem
  have hname := List.IsChain.infix h (Text.infix_of_mem_pieces (List.mem_filter.1 hmem).1)
  exact absurd hname (by decide)

/-! ### Paths of keys -/

/-- Directories and file are parts of the key, or the file is one of those for keys without a
colon. -/
theorem mem_parts_of_mem_place {spaces parts : List String} (hp : parts ≠ []) {s : String}
    (hs : s ∈ (place spaces parts).1 ++ [(place spaces parts).2.1]) :
    s ∈ spaces ++ parts ∨ s = commonFile ∨ s = globalFile := by
  by_cases hspaces : spaces = []
  · subst hspaces
    rw [place_nil hp] at hs
    obtain rfl := List.mem_singleton.1 hs
    split
    · exact .inr (.inl rfl)
    · exact .inr (.inr rfl)
  · left
    rw [← (place_of_ne_nil hspaces hp).1, List.append_cons]
    exact List.mem_append_left _ hs

theorem isChain_of_mem_route (h : ofKey? key = .ok l) :
    ∀ s ∈ l.route, s.IsChain Key.Apart := by
  intro s hs
  obtain ⟨spaces, parts, hdivided⟩ := Key.exists_divided (Key.normalize key)
  have hkey : (Key.normalize key).toList.IsChain Key.Apart := (Key.isCanonical_normalize key).apart
  have hl : l =
      ⟨(place spaces parts).1, (place spaces parts).2.1, (place spaces parts).2.2, key⟩ := by
    rcases ofKey?_cases hdivided with ⟨-, -, hcase⟩ | ⟨-, -, hcase⟩ | ⟨-, -, -, hcase⟩
    · simp [hcase] at h
    · simp [hcase] at h
    · exact Except.ok.inj (h.symm.trans hcase)
  obtain ⟨part, hpart, rfl⟩ := List.mem_map.1 hs
  rw [hl] at hpart
  rcases mem_parts_of_mem_place hdivided.ne_nil hpart with hmem | rfl | rfl
  · exact List.IsChain.infix hkey (hdivided.infix_of_mem hmem)
  · decide
  · decide

/-- The path of the file of a key has no name that goes back. It begins at the root exactly if a
segment does, and then what stands before that segment is lost, with the directory that the path is
joined to. Otherwise it has the names of all segments in order, and joined to any directory it leads
to a place inside it. -/
theorem filePath_route (h : ofKey? key = .ok l) :
    let path := l.filePath.toList
    (isRooted path = true ↔ ∃ s ∈ l.route, isRooted s = true) ∧
      ['.', '.'] ∉ names path ∧
      ((∀ s ∈ l.route, isRooted s = false) → names path = l.route.flatMap names ∧
        ∀ root, names (push root path) = names root ++ names path ∧
          destination (push root path) = destination root ++ (names path).filter (· != ['.'])) ∧
      ∀ before s after, l.route = before ++ s :: after → isRooted s = true →
        path = after.foldl push s ∧ ∀ root, push root path = path := by
  intro path
  have hpath : path = l.route.foldl push [] := toList_filePath l
  have hrooted : isRooted path = l.route.any isRooted := by
    rw [hpath, isRooted_foldl_push]
    rfl
  have hback : ['.', '.'] ∉ names path := by
    rw [hpath]
    exact back_notMem_names (isChain_foldl_push .nil (isChain_of_mem_route h))
  refine ⟨by rw [hrooted, List.any_eq_true], hback, fun hplain => ?_,
    fun before s after hroute hs => ?_⟩
  · have hrelative : isRooted path = false := by
      rw [hrooted, List.any_eq_false]
      exact fun s hs => by simp [hplain s hs]
    refine ⟨?_, fun root => ⟨names_push hrelative root, ?_⟩⟩
    · rw [hpath, names_foldl_push hplain]
      rfl
    · rw [destination, names_push hrelative, List.foldl_append, foldl_enter hback]
      rfl
  · have hstart : isRooted path = true := by
      rw [hrooted, hroute, List.any_eq_true]
      exact ⟨s, by simp, hs⟩
    refine ⟨?_, push_of_isRooted hstart⟩
    rw [hpath, hroute, foldl_push_of_isRooted hs]

/-- A place below a directory that is itself reached over a way back. -/
theorem filePath_route_meal :
    let key := "app:features:meal.orderComponent.title"
    let l : Location := ⟨["app", "features", "meal"], "orderComponent", ["title"], key⟩
    let root := "/srv/old/../locales".toList
    ofKey? key = .ok l ∧ (∀ s ∈ l.route, isRooted s = false) ∧
      l.filePath = "app/features/meal/orderComponent" ∧
      destination (push root l.filePath.toList) =
        destination root ++ (names l.filePath.toList).filter (· != ['.']) ∧
      destination root = ["srv", "locales"].map String.toList ∧
      names l.filePath.toList = ["app", "features", "meal", "orderComponent"].map String.toList := by
  intro key l root
  have hl : ofKey? key = .ok l := by decide +kernel
  have hplain : ∀ s ∈ l.route, isRooted s = false := by decide +kernel
  obtain ⟨-, -, hkept, -⟩ := filePath_route hl
  exact ⟨hl, hplain, by decide +kernel, ((hkept hplain).2 root).2, by decide +kernel,
    by decide +kernel⟩

/-- A file with a slash at its start is looked for at the root. -/
theorem filePath_rooted :
    ofKey? "a:/b:c" = .ok ⟨["a"], "/b", ["c"], "a:/b:c"⟩ ∧
      (Location.mk ["a"] "/b" ["c"] "a:/b:c").filePath = "/b" ∧
      isRooted "/b".toList = true ∧ push "locales".toList "/b".toList = "/b".toList := by
  refine ⟨by decide +kernel, by decide +kernel, by decide +kernel, by decide +kernel⟩

end Location

end Phrasebook
