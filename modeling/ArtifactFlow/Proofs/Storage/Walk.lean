import ArtifactFlow.Proofs.Except
import ArtifactFlow.Proofs.Storage.Paths

/-!
Where paths lead on a disk. A walk can be broken off and taken up again, so that the path to an
entry of a directory leads one step further than the path to the directory.
-/

namespace ArtifactFlow

namespace FileTree

variable {tree child : FileTree} {entries : Fields FileTree} {here there pieces : List String}
  {name : String}

theorem at?_append (xs ys : List String) (tree : FileTree) :
    at? (xs ++ ys) tree = at? xs tree >>= at? ys := by
  induction xs generalizing tree with
  | nil => rfl
  | cons name rest ih =>
      rw [List.cons_append, at?, at?]
      cases Fields.get? name tree.entries with
      | none => rfl
      | some child => exact ih child

theorem walk_append (tree : FileTree) (here xs ys : List String) :
    walk tree here (xs ++ ys) = walk tree here xs >>= fun there => walk tree there ys := by
  induction xs generalizing here with
  | nil => rfl
  | cons piece rest ih =>
      rw [List.cons_append, walk, walk]
      split
      · split_ifs
        · exact ih here
        · exact ih here.dropLast
        · rfl
        · exact ih (here ++ [piece])
        · rfl
      · rfl
      · rfl

theorem isDirectory_of_walk (h : walk tree here pieces = .ok there)
    (hthere : at? there tree = some (.directory entries)) :
    ∃ entries, at? here tree = some (.directory entries) := by
  cases pieces with
  | nil =>
      obtain rfl := Except.ok.inj h
      exact ⟨entries, hthere⟩
  | cons piece rest =>
      rw [walk] at h
      split at h
      · rename_i found hfound
        exact ⟨found, hfound⟩
      · cases h
      · cases h

/-- An empty piece or a dot asks for a directory and stays there. -/
theorem walk_stay {piece : String} (hpiece : piece = "" ∨ piece = ".")
    (h : at? here tree = some (.directory entries)) : walk tree here [piece] = .ok here := by
  rw [walk, h]
  obtain rfl | rfl := hpiece <;> rfl

theorem walk_name (hhere : at? here tree = some (.directory entries)) (hname : Disk.isName name)
    (hshort : name.utf8ByteSize ≤ nameLimit) (hchild : Fields.get? name entries = some child) :
    walk tree here [name] = .ok (here ++ [name]) ∧ at? (here ++ [name]) tree = some child := by
  simp only [Disk.isName, Bool.not_eq_true', Bool.or_eq_false_iff, decide_eq_false_iff_not] at hname
  obtain ⟨⟨hempty, hdot⟩, hdots⟩ := hname
  constructor
  · rw [walk, hhere]
    simp [hempty, hdot, hdots, Nat.not_lt.2 hshort, Fields.contains, hchild, walk]
  · rw [at?_append, hhere]
    simp [at?, FileTree.entries, hchild]

end FileTree

namespace Disk

variable {d : Disk} {p : Path} {here : List String} {entries : Fields FileTree} {child : FileTree}
  {name : String}

theorem malformed?_eq_none : malformed? p = none ↔
    '\x00' ∉ p.text.toList ∧ p.text ≠ "" ∧ p.text.utf8ByteSize < pathBound := by
  rw [malformed?]
  split_ifs with hnul hempty hlong
  · simpa using fun h _ => absurd (by simpa using hnul) h
  · simpa using fun _ hne => absurd (String.isEmpty_iff.1 hempty) hne
  · simpa using fun _ _ => hlong
  · simpa using ⟨by simpa using hnul, by simpa using hempty, by omega⟩

/-- What a name has to be to stand in a directory. -/
structure EntryName (name : String) : Prop where
  isName : Disk.isName name
  slashless : '/' ∉ name.toList
  nulless : '\x00' ∉ name.toList
  short : name.utf8ByteSize ≤ FileTree.nameLimit

instance (name : String) : Decidable (EntryName name) :=
  decidable_of_iff (isName name ∧ '/' ∉ name.toList ∧ '\x00' ∉ name.toList ∧
      name.utf8ByteSize ≤ FileTree.nameLimit)
    ⟨fun ⟨h, hslash, hnul, hshort⟩ => ⟨h, hslash, hnul, hshort⟩,
      fun h => ⟨h.isName, h.slashless, h.nulless, h.short⟩⟩

theorem ne_empty_of_isName (h : isName name) : name ≠ "" := by
  rintro rfl
  exact absurd h (by decide)

theorem locate_eq_ok : d.locate p = .ok here ↔
    malformed? p = none ∧ d.tree.walk (d.start p) p.pieces = .ok here := by
  rw [locate]
  cases malformed? p <;> simp

theorem lookup_eq_ok {tree : FileTree} : d.lookup p = .ok tree ↔
    ∃ here, d.locate p = .ok here ∧ FileTree.at? here d.tree = some tree := by
  rw [lookup, bind_eq_ok]
  refine exists_congr fun here => and_congr_right fun _ => ?_
  cases FileTree.at? here d.tree <;> simp

section Directory

variable (hlocate : d.locate p = .ok here)
  (hhere : FileTree.at? here d.tree = some (.directory entries))
include hlocate hhere

/-- Slashes at the end of a path to a directory lead nowhere else. -/
theorem walk_leading : d.tree.walk (d.start p) p.leading = .ok here := by
  obtain ⟨hpath, hwalk⟩ := locate_eq_ok.1 hlocate
  obtain hpieces | hpieces := (Path.leading_eq (malformed?_eq_none.1 hpath).2.1).2
  · rwa [hpieces] at hwalk
  · rw [hpieces, FileTree.walk_append] at hwalk
    obtain ⟨there, hthere, hstay⟩ := bind_eq_ok.1 hwalk
    obtain ⟨found, hfound⟩ := FileTree.isDirectory_of_walk hstay hhere
    rw [FileTree.walk_stay (.inl rfl) hfound] at hstay
    rwa [Except.ok.inj hstay] at hthere

theorem locate_join (hname : '/' ∉ name.toList) (hpath : malformed? (p.join ⟨name⟩) = none) :
    d.locate (p.join ⟨name⟩) = d.tree.walk here [name] := by
  have hne := (malformed?_eq_none.1 (locate_eq_ok.1 hlocate).1).2.1
  have hstart : d.start (p.join ⟨name⟩) = d.start p := by
    rw [start, start, Path.isAbsolute_join hne hname]
  rw [locate, hpath, hstart, Path.pieces_join hne hname, FileTree.walk_append,
    walk_leading hlocate hhere]
  rfl

end Directory

end Disk
end ArtifactFlow
