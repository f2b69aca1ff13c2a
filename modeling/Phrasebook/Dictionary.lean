/-!
# Dictionaries ordered by key

A dictionary is a list of keys with values. `insert` keeps the keys in ascending order, character
by character, and has one entry per key; `find?_insert` says what it does to look-ups.
-/

namespace Phrasebook

abbrev Dictionary (α : Type) := List (String × α)

namespace Dictionary

variable {α β : Type}

/-- The value under `key`. -/
def find? (key : String) : Dictionary α → Option α
  | [] => none
  | (k, v) :: rest => if k = key then some v else find? key rest

/-- Puts `value` under `key`, in place of what was there. -/
def insert (key : String) (value : α) : Dictionary α → Dictionary α
  | [] => [(key, value)]
  | (k, v) :: rest =>
    if k = key then (key, value) :: rest
    else if key < k then (key, value) :: (k, v) :: rest
    else (k, v) :: insert key value rest

/-- The dictionary with these entries; of two entries for one key the later one counts. -/
def ofList (entries : List (String × α)) : Dictionary α :=
  entries.foldl (fun d (k, v) => insert k v d) []

/-- Whether `key` has a value. -/
def contains (key : String) (d : Dictionary α) : Bool :=
  (find? key d).isSome

/-- Every key is below the keys after it. -/
def Sorted (d : Dictionary α) : Prop :=
  d.Pairwise fun a b => a.1 < b.1

@[simp] theorem find?_nil (key : String) : find? key ([] : Dictionary α) = none := rfl

theorem find?_cons (key k : String) (v : α) (rest : Dictionary α) :
    find? key ((k, v) :: rest) = if k = key then some v else find? key rest := rfl

theorem mem_of_find? {key : String} {value : α} {d : Dictionary α} (h : find? key d = some value) :
    (key, value) ∈ d := by
  induction d with
  | nil => cases h
  | cons e rest ih =>
    obtain ⟨k, v⟩ := e
    rw [find?_cons] at h
    split at h
    · rename_i hk
      obtain rfl := Option.some.inj h
      exact hk ▸ List.mem_cons_self
    · exact List.mem_cons_of_mem _ (ih h)

@[simp] theorem find?_insert_self (key : String) (value : α) (d : Dictionary α) :
    find? key (insert key value d) = some value := by
  induction d with
  | nil => simp [insert, find?]
  | cons e rest ih =>
    obtain ⟨k, v⟩ := e
    by_cases hk : k = key
    · simp [insert, hk, find?]
    · by_cases hl : key < k
      · simp [insert, hk, hl, find?]
      · simp [insert, hk, hl, find?, ih]

theorem find?_insert_of_ne {key other : String} (h : other ≠ key) (value : α) (d : Dictionary α) :
    find? other (insert key value d) = find? other d := by
  induction d with
  | nil => simp [insert, find?, Ne.symm h]
  | cons e rest ih =>
    obtain ⟨k, v⟩ := e
    by_cases hk : k = key
    · subst hk
      simp [insert, find?, Ne.symm h]
    · by_cases hl : key < k
      · simp [insert, hk, hl, find?, Ne.symm h]
      · simp [insert, hk, hl, find?, ih]

theorem find?_insert (key other : String) (value : α) (d : Dictionary α) :
    find? other (insert key value d) = if other = key then some value else find? other d := by
  by_cases h : other = key
  · simp [h]
  · simp [h, find?_insert_of_ne h]

end Dictionary

end Phrasebook
