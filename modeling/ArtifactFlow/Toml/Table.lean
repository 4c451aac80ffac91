import ArtifactFlow.Value.Basic

/-!
Tables of a TOML document while it is being read. A table may be implied by a longer name before it
has a header of its own, or be opened by a dotted key; each may be defined once. Values, inline
tables included, cannot be added to.
-/

namespace ArtifactFlow.Toml

/-- How a table came to be. -/
inductive Origin where
  /-- By a header of its own, or as the document's root. -/
  | header
  /-- By a header of a table inside it. -/
  | implied
  /-- By a dotted key. -/
  | dotted
  deriving DecidableEq, Repr

inductive Item where
  | value (v : Value)
  | table (origin : Origin) (entries : List (String × Item))
  /-- The tables of an array of tables. -/
  | tables (elements : List (List (String × Item)))

abbrev Entries := List (String × Item)

/-- Works on the table at the end of a path, making the tables on the way where they are missing.
In an array of tables the last one is meant. By dotted keys only tables that have no header can be
reached. -/
def atPath? (dotted : Bool) (f : Origin → Entries → Option Entries) :
    List String → Origin → Entries → Option Entries
  | [], origin, entries => f origin entries
  | key :: path, _, entries =>
      match Fields.get? key entries with
      | none => do
          let origin := if dotted then .dotted else .implied
          let inner ← atPath? dotted f path origin []
          return Fields.insert key (.table origin inner) entries
      | some (.value _) => none
      | some (.table origin inner) => do
          if dotted && origin == .header then none
          else
            let inner ← atPath? dotted f path origin inner
            return Fields.insert key (.table origin inner) entries
      | some (.tables elements) =>
          match elements.reverse with
          | [] => none
          | last :: before => do
              let last ← atPath? dotted f path .header last
              return Fields.insert key (.tables (last :: before).reverse) entries

def defineTable? (key : String) (entries : Entries) : Option Entries :=
  match Fields.get? key entries with
  | none => some (Fields.insert key (.table .header []) entries)
  | some (.table .implied inner) => some (Fields.insert key (.table .header inner) entries)
  | _ => none

def addTable? (key : String) (entries : Entries) : Option Entries :=
  match Fields.get? key entries with
  | none => some (Fields.insert key (.tables [[]]) entries)
  | some (.tables elements) => some (Fields.insert key (.tables (elements ++ [[]])) entries)
  | _ => none

def addValue? (key : String) (v : Value) (entries : Entries) : Option Entries :=
  if Fields.contains key entries then none
  else some (Fields.insert key (.value v) entries)

/-- Puts a value under a dotted key. The table it goes into must have been opened by a dotted key,
or be the one the key starts from. -/
def assign? (path : List String) (key : String) (v : Value) (origin : Origin)
    (entries : Entries) : Option Entries :=
  atPath? true (fun reached entries =>
    if !path.isEmpty && reached != .dotted then none else addValue? key v entries)
    path origin entries

mutual

def Item.toValue : Item → Value
  | .value v => v
  | .table _ entries => .mapping (entriesToMapping [] entries)
  | .tables elements => .list (elementsToValues elements)
  termination_by structural i => i

def entriesToMapping (done : Mapping) : List (String × Item) → Mapping
  | [] => done
  | (key, item) :: rest => entriesToMapping (Fields.insertSorted key item.toValue done) rest
  termination_by structural entries => entries

def elementsToValues : List (List (String × Item)) → List Value
  | [] => []
  | entries :: rest => .mapping (entriesToMapping [] entries) :: elementsToValues rest
  termination_by structural elements => elements

end

end ArtifactFlow.Toml
