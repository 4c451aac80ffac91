import ArtifactFlow.Project.ParameterSets
import ArtifactFlow.Proofs.Ascending
import ArtifactFlow.Proofs.Except
import ArtifactFlow.Proofs.FirstLeast
import Mathlib.Data.Int.Order.Basic
import Mathlib.Data.List.Forall2

/-!
Which of several sets of one name is kept. Sets of other names make no difference to it, so that it
is the first one of the least precedence among those of the name. Without ties the order in which
sets are added is lost altogether. Loading a directory adds the sets of its files in the order of
the files.
-/

namespace ArtifactFlow

/-- All values of a key, in the order of the entries. -/
def Fields.allUnder {α : Type u} (key : String) (entries : List (String × α)) : List α :=
  (entries.filter (·.1 = key)).map (·.2)

namespace Fields

variable {α : Type u} {entries others : List (String × α)} {key k : String} {value : α}

theorem allUnder_cons : allUnder key ((k, value) :: entries) =
    if k = key then value :: allUnder key entries else allUnder key entries := by
  by_cases hk : k = key <;> simp [allUnder, hk]

theorem mem_allUnder : value ∈ allUnder key entries ↔ (key, value) ∈ entries := by
  simp [allUnder]

theorem allUnder_eq_nil : allUnder key entries = [] ↔ key ∉ keys entries := by
  rw [List.eq_nil_iff_forall_not_mem]
  simp [mem_allUnder, keys]

end Fields

namespace ParameterSets

/-- Adds sets under their names, one after another. -/
def addAll (sets : ParameterSets) (entries : List (String × ParameterSet)) : ParameterSets :=
  entries.foldl (fun sets (name, set) => sets.add name set) sets

variable {sets : ParameterSets} {entries others : List (String × ParameterSet)}
  {name other : String} {set : ParameterSet}

theorem get?_add : Fields.get? other (sets.add name set) =
    if name = other then keepLeast ParameterSet.precedence (Fields.get? other sets) set
    else Fields.get? other sets := by
  rw [add]
  by_cases hname : name = other
  · subst hname
    cases hpresent : Fields.get? name sets with
    | none => simp [Fields.get?_insertSorted, keepLeast]
    | some present =>
        by_cases hle : present.precedence ≤ set.precedence
        · simp [hle, hpresent, keepLeast, not_lt_of_ge hle]
        · simp [hle, Fields.get?_insertSorted, keepLeast, lt_of_not_ge hle]
  · rw [if_neg hname]
    split
    · split
      · rfl
      · rw [Fields.get?_insertSorted, if_neg hname]
    · rw [Fields.get?_insertSorted, if_neg hname]

/-- Sets of other names pass by. -/
theorem get?_addAll : Fields.get? name (sets.addAll entries) =
    (Fields.allUnder name entries).foldl (keepLeast ParameterSet.precedence)
      (Fields.get? name sets) := by
  induction entries generalizing sets with
  | nil => rfl
  | cons entry rest ih =>
      obtain ⟨other, set⟩ := entry
      change Fields.get? name ((sets.add other set).addAll rest) = _
      rw [ih, get?_add, Fields.allUnder_cons]
      by_cases hname : other = name
      · rw [if_pos hname, if_pos hname, List.foldl_cons]
      · rw [if_neg hname, if_neg hname]

theorem ascending_add (h : Fields.Ascending sets) (name : String) (set : ParameterSet) :
    Fields.Ascending (sets.add name set) := by
  rw [add]
  split
  · split
    · exact h
    · exact h.insertSorted name set
  · exact h.insertSorted name set

theorem ascending_addAll (h : Fields.Ascending sets) : Fields.Ascending (sets.addAll entries) := by
  induction entries generalizing sets with
  | nil => exact h
  | cons entry rest ih => exact ih (ascending_add h entry.1 entry.2)

theorem get?_addAll_eq_some : Fields.get? name (addAll [] entries) = some set ↔
    FirstLeast ParameterSet.precedence (Fields.allUnder name entries) set := by
  rw [get?_addAll]
  exact foldl_keepLeast_eq_some

theorem contains_addAll :
    Fields.contains name (addAll [] entries) ↔ name ∈ Fields.keys entries := by
  have hnone : Fields.get? name (addAll [] entries) = none ↔ name ∉ Fields.keys entries := by
    rw [get?_addAll, ← Fields.allUnder_eq_nil]
    exact foldl_keepLeast_eq_none
  rw [Fields.contains, ← Option.ne_none_iff_isSome, ne_eq, hnone, not_not]

/-- Sets of one name have different precedences. -/
def Untied (entries : List (String × ParameterSet)) : Prop :=
  entries.Pairwise fun a b => a.1 = b.1 → a.2.precedence ≠ b.2.precedence

theorem Untied.allUnder (h : Untied entries) (name : String) :
    (Fields.allUnder name entries).Pairwise fun a b => a.precedence ≠ b.precedence := by
  rw [Fields.allUnder, List.pairwise_map]
  refine (List.Pairwise.filter _ h).imp_of_mem fun {a b} ha hb hne => hne ?_
  have hname : a.1 = name := by simpa using (List.mem_filter.1 ha).2
  have hother : b.1 = name := by simpa using (List.mem_filter.1 hb).2
  rw [hname, hother]

theorem Untied.perm (h : Untied entries) (perm : entries.Perm others) : Untied others :=
  perm.pairwise h fun hne heq hprecedence => hne heq.symm hprecedence.symm

/-- Without ties the order does not show. -/
theorem Untied.addAll_eq (h : Untied entries) (perm : entries.Perm others) :
    addAll [] entries = addAll [] others := by
  refine (ascending_addAll Fields.ascending_nil).ext (ascending_addAll Fields.ascending_nil) ?_
  refine fun name => Option.ext fun set => ?_
  rw [get?_addAll_eq_some, get?_addAll_eq_some, firstLeast_iff_of_distinct (h.allUnder name),
    firstLeast_iff_of_distinct ((h.perm perm).allUnder name)]
  simp only [Fields.mem_allUnder, perm.mem_iff]

/-- Under each name that sets were added for, the first one of the least precedence is kept. If sets
of one name have different precedences, every order of adding them gives the same. -/
theorem addAll_account (entries : List (String × ParameterSet)) :
    (∀ name set, Fields.get? name (addAll [] entries) = some set ↔
      FirstLeast ParameterSet.precedence (Fields.allUnder name entries) set) ∧
    (∀ name, Fields.contains name (addAll [] entries) ↔ name ∈ Fields.keys entries) ∧
    (Untied entries → ∀ others, entries.Perm others → addAll [] entries = addAll [] others ∧
      ∀ name, (addAll [] entries).expand name = (addAll [] others).expand name) := by
  refine ⟨fun _ _ => get?_addAll_eq_some, fun _ => contains_addAll, fun untied others perm => ?_⟩
  have heq := untied.addAll_eq perm
  exact ⟨heq, fun name => by rw [heq]⟩

namespace Cellar

/-- Two sets of one name, and one between them that builds on the name. -/
def racked : List (String × ParameterSet) :=
  [("cask", ⟨[], .recursive, 5, [("wood", .string "oak")]⟩),
    ("vault", ⟨["cask"], .recursive, 0, [("rows", .int 3)]⟩),
    ("cask", ⟨[], .recursive, 1, [("wood", .string "ash")]⟩)]

end Cellar

open Cellar in
theorem addAll_account_cellar : Untied racked ∧ racked.Perm racked.reverse ∧
    addAll [] racked = addAll [] racked.reverse ∧
    (addAll [] racked).expand "vault" = .ok [("wood", .string "ash"), ("rows", .int 3)] ∧
    (addAll [] racked.reverse).expand "vault" =
      .ok [("wood", .string "ash"), ("rows", .int 3)] := by
  have untied : Untied racked := by simp [Untied, racked]
  have perm : racked.Perm racked.reverse := (List.reverse_perm racked).symm
  have hexpand : (addAll [] racked).expand "vault" =
      .ok [("wood", .string "ash"), ("rows", .int 3)] := rfl
  obtain ⟨-, -, horder⟩ := addAll_account racked
  obtain ⟨heq, hall⟩ := horder untied racked.reverse perm
  exact ⟨untied, perm, heq, hexpand, hall "vault" ▸ hexpand⟩

section Loading

variable {loaded : ParameterSets} {d : Disk} {dir path : Path} {paths : List Path}
  {fields : Mapping}

/-- The entry of a file reads as this set under its name. -/
def Describes (written : String × Value) (entry : String × ParameterSet) : Prop :=
  ParameterSet.ofValue? written.2 = some entry.2 ∧ written.1 = entry.1

/-- The file holds a mapping that describes these sets. -/
def Holds (d : Disk) (path : Path) (entries : List (String × ParameterSet)) : Prop :=
  ∃ fields, ConfigFile.readMapping d path = .ok fields ∧ List.Forall₂ Describes fields entries

theorem addEntry_eq_ok {name : String} {v : Value} : sets.addEntry path name v = .ok loaded ↔
    ∃ set, ParameterSet.ofValue? v = some set ∧ loaded = sets.add name set := by
  rw [addEntry]
  cases ParameterSet.ofValue? v with
  | none => simp [ConfigFile.shaped, Result.context]
  | some set => simp [ConfigFile.shaped, Result.context, eq_comm]

theorem foldlM_addEntry_eq_ok :
    fields.foldlM (fun sets (name, entry) => sets.addEntry path name entry) sets = .ok loaded ↔
      ∃ entries, List.Forall₂ Describes fields entries ∧ loaded = sets.addAll entries := by
  induction fields generalizing sets with
  | nil => simp [addAll, eq_comm]
  | cons written rest ih =>
      obtain ⟨name, v⟩ := written
      simp only [List.foldlM_cons, bind_eq_ok, addEntry_eq_ok, ih]
      constructor
      · rintro ⟨_, ⟨set, hset, rfl⟩, entries, hrest, rfl⟩
        exact ⟨(name, set) :: entries, .cons ⟨hset, rfl⟩ hrest, rfl⟩
      · rintro ⟨_, hall, rfl⟩
        cases hall with
        | @cons _ entry _ entries hentry hrest =>
            obtain ⟨hset, rfl⟩ := hentry
            exact ⟨_, ⟨_, hset, rfl⟩, entries, hrest, rfl⟩

theorem foldlM_files_eq_ok :
    paths.foldlM (fun sets path => do
      (← ConfigFile.readMapping d path).foldlM
        (fun sets (name, entry) => sets.addEntry path name entry) sets) sets = .ok loaded ↔
      ∃ files, List.Forall₂ (Holds d) paths files ∧ loaded = sets.addAll files.flatten := by
  induction paths generalizing sets with
  | nil => simp [addAll, eq_comm]
  | cons path rest ih =>
      simp only [List.foldlM_cons, bind_eq_ok, foldlM_addEntry_eq_ok, ih]
      constructor
      · rintro ⟨_, ⟨fields, hread, entries, hentries, rfl⟩, files, hrest, rfl⟩
        exact ⟨entries :: files, .cons ⟨fields, hread, hentries⟩ hrest, List.foldl_append.symm⟩
      · rintro ⟨_, hall, rfl⟩
        cases hall with
        | @cons _ entries _ files hfile hrest =>
            obtain ⟨fields, hread, hentries⟩ := hfile
            exact ⟨_, ⟨fields, hread, entries, hentries, rfl⟩, files, hrest, List.foldl_append⟩

/-- The sets of a directory are those that its files hold, added in the order of the files. -/
theorem load_eq_ok (hdir : d.isDirectory dir) : load d dir = .ok loaded ↔
    ∃ paths files, ConfigFile.yamlFiles d dir "**/*" = .ok paths ∧
      List.Forall₂ (Holds d) paths files ∧ loaded = addAll [] files.flatten := by
  rw [load, ConfigFile.foldEntries, hdir]
  simp only [Bool.not_true, if_false, bind_eq_ok, Bool.false_eq_true, foldlM_files_eq_ok]
  constructor
  · rintro ⟨paths, hpaths, files, h⟩
    exact ⟨paths, files, hpaths, h⟩
  · rintro ⟨paths, files, hpaths, h⟩
    exact ⟨paths, hpaths, files, h⟩

/-- Of the sets of one name that the files hold, the first one of the least precedence is loaded. -/
theorem get?_load (hdir : d.isDirectory dir) (h : load d dir = .ok loaded) :
    ∃ paths files, ConfigFile.yamlFiles d dir "**/*" = .ok paths ∧
      List.Forall₂ (Holds d) paths files ∧ ∀ name set, Fields.get? name loaded = some set ↔
        FirstLeast ParameterSet.precedence (Fields.allUnder name files.flatten) set := by
  obtain ⟨paths, files, hpaths, hfiles, rfl⟩ := (load_eq_ok hdir).1 h
  exact ⟨paths, files, hpaths, hfiles, fun _ _ => get?_addAll_eq_some⟩

end Loading

end ParameterSets
end ArtifactFlow
