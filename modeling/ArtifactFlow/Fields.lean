/-!
Finite maps with text keys, kept as lists of entries. `insert` keeps the order in which keys first
came and `insertSorted` keeps keys ascending; both leave keys distinct, and both replace the value
of a key that is there.
-/

namespace ArtifactFlow

/-- Entries of a map, in an order that can be observed. -/
abbrev Fields (α : Type u) := List (String × α)

namespace Fields

variable {α : Type u} {β : Type v}

def get? (key : String) : Fields α → Option α
  | [] => none
  | (k, v) :: rest => if k = key then some v else get? key rest

def contains (key : String) (fields : Fields α) : Bool :=
  (get? key fields).isSome

def keys (fields : Fields α) : List String :=
  fields.map (·.1)

/-- No key stands twice. -/
def Distinct (fields : Fields α) : Prop :=
  (keys fields).Nodup

/-- Puts a value under a key: in place when the key is there, else at the end. -/
def insert (key : String) (value : α) : Fields α → Fields α
  | [] => [(key, value)]
  | (k, v) :: rest => if k = key then (k, value) :: rest else (k, v) :: insert key value rest

/-- Puts a value under a key in a map whose keys ascend. -/
def insertSorted (key : String) (value : α) : Fields α → Fields α
  | [] => [(key, value)]
  | (k, v) :: rest =>
      if k = key then (k, value) :: rest
      else if key < k then (key, value) :: (k, v) :: rest
      else (k, v) :: insertSorted key value rest

def erase (key : String) : Fields α → Fields α
  | [] => []
  | (k, v) :: rest => if k = key then rest else (k, v) :: erase key rest

/-- Puts every entry of the second map into the first, in order. -/
def insertAll (into : Fields α) (source : Fields α) : Fields α :=
  source.foldl (fun acc (k, v) => insert k v acc) into

/-- The map of a list of entries, in which a later entry of a key replaces the earlier one. -/
def ofEntries (entries : List (String × α)) : Fields α :=
  insertAll [] entries

def mapValues (f : α → β) (fields : Fields α) : Fields β :=
  fields.map fun (k, v) => (k, f v)

@[simp] theorem get?_nil (key : String) : get? key ([] : Fields α) = none := rfl

theorem get?_insert_self (key : String) (value : α) (fields : Fields α) :
    get? key (insert key value fields) = some value := by
  induction fields with
  | nil => simp [insert, get?]
  | cons entry rest ih =>
      obtain ⟨k, v⟩ := entry
      simp only [insert]
      split <;> simp_all [get?]

theorem get?_insert_of_ne {key other : String} (h : key ≠ other) (value : α)
    (fields : Fields α) : get? other (insert key value fields) = get? other fields := by
  induction fields with
  | nil => simp [insert, get?, h]
  | cons entry rest ih =>
      obtain ⟨k, v⟩ := entry
      simp only [insert]
      split
      · rename_i hk
        subst hk
        simp [get?, h]
      · simp only [get?]
        split
        · rfl
        · exact ih

end Fields

/-- Puts a text into an ascending list of distinct texts. -/
def insertName (name : String) : List String → List String
  | [] => [name]
  | n :: rest =>
      if n = name then n :: rest
      else if name < n then name :: n :: rest
      else n :: insertName name rest

/-- The texts of a list in ascending order, each once. -/
def sortedNames (names : List String) : List String :=
  names.foldl (fun acc n => insertName n acc) []

end ArtifactFlow
