import Phrasebook.Catalog

/-!
# Catalogs and JSON data

A JSON value stands for a catalog exactly if it is an object and all that is inside of it, at every
depth, is a text or an object again. `Catalog.ofValue?_lossless` adds that nothing is lost: a catalog
is read from the one value that it is written as.
-/

namespace Phrasebook

namespace Value

mutual

/-- What an object has inside, at every depth, that is no object itself; any other value is its own
leaf. -/
def leaves : Value → List Value
  | .object fields => fieldLeaves fields
  | .null => [.null]
  | .bool b => [.bool b]
  | .int n => [.int n]
  | .float x => [.float x]
  | .str s => [.str s]
  | .list items => [.list items]

def fieldLeaves : List (String × Value) → List Value
  | [] => []
  | (_, v) :: rest => v.leaves ++ fieldLeaves rest

end

mutual

/-- At every depth the keys of an object are in ascending order, so that there is one of each. -/
def Ordered : Value → Prop
  | .object fields => Dictionary.Sorted fields ∧ FieldsOrdered fields
  | .list items => ItemsOrdered items
  | _ => True

def FieldsOrdered : List (String × Value) → Prop
  | [] => True
  | (_, v) :: rest => v.Ordered ∧ FieldsOrdered rest

def ItemsOrdered : List Value → Prop
  | [] => True
  | v :: rest => v.Ordered ∧ ItemsOrdered rest

end

end Value

namespace Entry

mutual

/-- At every depth the names in a group are in ascending order. -/
def Ordered : Entry → Prop
  | .text _ => True
  | .group entries => Dictionary.Sorted entries ∧ EntriesOrdered entries

def EntriesOrdered : List (String × Entry) → Prop
  | [] => True
  | (_, e) :: rest => e.Ordered ∧ EntriesOrdered rest

end

/-- A value is read as a text if it is one, and otherwise as a group. -/
theorem ofValue?_eq_or (v : Value) :
    ofValue? v = (v.text?.map .text).or ((Catalog.ofValue? v).map .group) := by
  cases v <;> rfl

theorem ofFields?_cons (k : String) (v : Value) (rest : List (String × Value)) :
    ofFields? ((k, v) :: rest) =
      (ofValue? v).bind fun e => (ofFields? rest).map ((k, e) :: ·) := by
  rw [ofFields?]
  cases ofValue? v with
  | none => rfl
  | some e => cases ofFields? rest <;> rfl

mutual

theorem ofValue?_toValue : ∀ e : Entry, ofValue? e.toValue = some e
  | .text s => rfl
  | .group entries => by
    rw [toValue, ofValue?, ofFields?_toFields entries, Option.map_some]

theorem ofFields?_toFields : ∀ es : List (String × Entry), ofFields? (toFields es) = some es
  | [] => rfl
  | (k, e) :: rest => by
    rw [toFields, ofFields?_cons, ofValue?_toValue e, ofFields?_toFields rest, Option.bind_some,
      Option.map_some]

end

mutual

theorem toValue_of_ofValue? : ∀ (v : Value) (e : Entry), ofValue? v = some e → e.toValue = v
  | .str s, e, h => by
    obtain rfl := Option.some.inj h
    rfl
  | .object fields, e, h => by
    obtain ⟨es, hes, rfl⟩ := Option.map_eq_some_iff.1 h
    rw [toValue, toFields_of_ofFields? fields es hes]

theorem toFields_of_ofFields? : ∀ (fields : List (String × Value)) (es : List (String × Entry)),
    ofFields? fields = some es → toFields es = fields
  | [], es, h => by
    obtain rfl := Option.some.inj h
    rfl
  | (k, v) :: rest, es, h => by
    rw [ofFields?_cons] at h
    obtain ⟨e, he, hrest⟩ := Option.bind_eq_some_iff.1 h
    obtain ⟨es', hes, rfl⟩ := Option.map_eq_some_iff.1 hrest
    rw [toFields, toValue_of_ofValue? v e he, toFields_of_ofFields? rest es' hes]

end

mutual

/-- A single leaf that is no text is enough for a value to be refused. -/
theorem isSome_ofValue? : ∀ v : Value,
    (ofValue? v).isSome = true ↔ ∀ leaf ∈ v.leaves, ∃ s, leaf = .str s
  | .object fields => by
    rw [ofValue?, Option.isSome_map, Value.leaves]
    exact isSome_ofFields? fields
  | .str s => by simp [ofValue?, Value.leaves]
  | .null => by simp [ofValue?, Value.leaves]
  | .bool b => by simp [ofValue?, Value.leaves]
  | .int n => by simp [ofValue?, Value.leaves]
  | .float x => by simp [ofValue?, Value.leaves]
  | .list items => by simp [ofValue?, Value.leaves]

theorem isSome_ofFields? : ∀ fields : List (String × Value),
    (ofFields? fields).isSome = true ↔ ∀ leaf ∈ Value.fieldLeaves fields, ∃ s, leaf = .str s
  | [] => by simp [ofFields?, Value.fieldLeaves]
  | (k, v) :: rest => by
    rw [Value.fieldLeaves, List.forall_mem_append, ← isSome_ofValue? v, ← isSome_ofFields? rest,
      ofFields?_cons]
    cases ofValue? v with
    | none => simp
    | some e => cases ofFields? rest <;> simp

end

theorem keys_toFields (es : List (String × Entry)) : (toFields es).map (·.1) = es.map (·.1) := by
  induction es with
  | nil => rfl
  | cons e rest ih =>
    obtain ⟨k, e⟩ := e
    rw [toFields, List.map_cons, List.map_cons, ih]

/-- Whether keys are in order does not depend on what they stand for. -/
theorem sorted_toFields (es : List (String × Entry)) :
    Dictionary.Sorted (toFields es) ↔ Dictionary.Sorted es := by
  have hkeys : ∀ {α : Type} (d : Dictionary α),
      Dictionary.Sorted d ↔ (d.map (·.1)).Pairwise (· < ·) := fun d => List.pairwise_map.symm
  rw [hkeys, hkeys, keys_toFields]

mutual

theorem ordered_toValue : ∀ e : Entry, e.toValue.Ordered ↔ e.Ordered
  | .text s => Iff.rfl
  | .group entries => by
    rw [toValue, Value.Ordered, Ordered, sorted_toFields, ordered_toFields entries]

theorem ordered_toFields : ∀ es : List (String × Entry),
    Value.FieldsOrdered (toFields es) ↔ EntriesOrdered es
  | [] => Iff.rfl
  | (k, e) :: rest => by
    rw [toFields, Value.FieldsOrdered, EntriesOrdered, ordered_toValue e, ordered_toFields rest]

end

end Entry

namespace Catalog

/-- The names are in ascending order, in the catalog and in every group. -/
def Ordered (c : Catalog) : Prop :=
  (Entry.group c).Ordered

theorem ofValue?_toValue (c : Catalog) : ofValue? c.toValue = some c :=
  Entry.ofFields?_toFields c

theorem ofValue?_eq_some_iff {v : Value} {c : Catalog} : ofValue? v = some c ↔ c.toValue = v := by
  refine ⟨fun h => ?_, ?_⟩
  · cases v with
    | object fields => exact congrArg Value.object (Entry.toFields_of_ofFields? fields c h)
    | _ => simp [ofValue?] at h
  · rintro rfl
    exact ofValue?_toValue c

theorem isSome_ofValue? (v : Value) :
    (ofValue? v).isSome = true ↔
      (∃ fields, v = .object fields) ∧ ∀ leaf ∈ v.leaves, ∃ s, leaf = .str s := by
  cases v with
  | object fields =>
    rw [Value.leaves, ← Entry.isSome_ofFields? fields]
    simp [ofValue?]
  | _ => simp [ofValue?]

/-- A value is read exactly if it is an object with texts for all its leaves, and then what is read
is written as this very value. Whatever catalog is written, it is read again. The order of names is
the order of keys, and inside of a catalog a value that is no text is read as a catalog. -/
theorem ofValue?_lossless (v : Value) :
    ((∃ c, ofValue? v = some c) ↔
      (∃ fields, v = .object fields) ∧ ∀ leaf ∈ v.leaves, ∃ s, leaf = .str s) ∧
    (∀ c, ofValue? v = some c → c.toValue = v ∧ (c.Ordered ↔ v.Ordered)) ∧
    (∀ c : Catalog, ofValue? c.toValue = some c ∧ (c.toValue.Ordered ↔ c.Ordered)) ∧
    Entry.ofValue? v = (v.text?.map .text).or ((ofValue? v).map .group) := by
  have hordered : ∀ c : Catalog, c.toValue.Ordered ↔ c.Ordered := fun c =>
    Entry.ordered_toValue (.group c)
  refine ⟨?_, fun c hc => ?_, fun c => ⟨ofValue?_toValue c, hordered c⟩, Entry.ofValue?_eq_or v⟩
  · rw [← isSome_ofValue?, Option.isSome_iff_exists]
  · have hv : c.toValue = v := ofValue?_eq_some_iff.1 hc
    rw [← hv]
    exact ⟨rfl, (hordered c).symm⟩

/-- A group may be empty. -/
theorem ofValue?_lossless_hero :
    let v : Value := .object [("hero", .object [("cta", .object []), ("title", .str "Welcome")])]
    let c : Catalog := [("hero", .group [("cta", .group []), ("title", .text "Welcome")])]
    ofValue? v = some c ∧ c.toValue = v ∧ v.Ordered := by
  intro v c
  have hread : ofValue? v = some c := by rfl
  have hhero : Dictionary.Sorted [("cta", Entry.group []), ("title", .text "Welcome")] := by
    unfold Dictionary.Sorted
    decide +kernel
  have hordered : c.Ordered := by
    simp only [c, Ordered, Entry.Ordered, Entry.EntriesOrdered, and_true]
    exact ⟨List.pairwise_singleton _ _, hhero, List.Pairwise.nil⟩
  obtain ⟨hwritten, horder⟩ := (ofValue?_lossless v).2.1 c hread
  exact ⟨hread, hwritten, horder.1 hordered⟩

/-- One list is enough for the whole value to be refused. -/
example :
    let hero : Value := .object [("cta", .list [.str "Go"]), ("title", .str "Welcome")]
    (ofValue? (.object [("hero", hero), ("title", .str "Home")])).isNone = true := by
  rfl

end Catalog

end Phrasebook
