import ArtifactFlow.Project.ConfigFile
import ArtifactFlow.Proofs.Names
import ArtifactFlow.Proofs.Storage.Paths

/-!
Paths that agree in all but their last piece, as the paths to the entries of one directory do. They
come in the order of their names, and the name alone tells the format of a file.
-/

namespace ArtifactFlow
namespace Path

/-- The path ends with the name of an entry behind the given pieces. -/
structure EndsWith (p : Path) (above : List String) (name : String) : Prop where
  pieces : p.pieces = above ++ [name]
  isName : Disk.isName name

variable {p q : Path} {above : List String} {name other : String}

theorem partOf?_of_isName (h : Disk.isName name) (first : Bool) :
    partOf? first name = some (.name name) := by
  simp only [Disk.isName, Bool.not_eq_true', Bool.or_eq_false_iff, decide_eq_false_iff_not] at h
  obtain ⟨⟨hempty, hdot⟩, hdots⟩ := h
  unfold partOf?
  split
  · exact absurd rfl hempty
  · exact absurd rfl hdot
  · exact absurd rfl hdots
  · rfl

theorem spell_snoc (h : Disk.isName name) (first : Bool) (written : String) (above : List String) :
    (spell first written (above ++ [name])).map (·.1) =
      (spell first written above).map (·.1) ++ [.name name] := by
  induction above generalizing first written with
  | nil => simp [spell, partOf?_of_isName h]
  | cons piece rest ih =>
      rw [List.cons_append, spell, spell]
      cases partOf? first piece with
      | none => exact ih false _
      | some part => cases part <;> simp only [List.map_cons, ih, List.cons_append]

theorem EndsWith.parts_eq (h : p.EndsWith above name) :
    p.parts = (spell true "" above).map (·.1) ++ [.name name] := by
  have hne : p.text.isEmpty = false := by
    rw [Bool.eq_false_iff]
    intro hempty
    have hpieces := h.pieces
    rw [Path.pieces, String.isEmpty_iff.1 hempty, Text.splitString_of_notMem (by simp)] at hpieces
    obtain ⟨rfl, hname⟩ := List.singleton_eq_append_iff.1 hpieces |>.resolve_right (by simp)
    obtain rfl := List.singleton_inj.1 hname
    exact absurd h.isName (by decide)
  rw [parts, spelled, hne, h.pieces]
  exact spell_snoc h.isName true "" above

theorem Part.not_before_self (part : Part) : part.before part = false := by
  cases part <;> simp [Part.before]

theorem partsBefore_append (parts others front : List Part) :
    partsBefore (front ++ parts) (front ++ others) = partsBefore parts others := by
  induction front with
  | nil => rfl
  | cons part rest ih =>
      rw [List.cons_append, List.cons_append, partsBefore, Part.not_before_self]
      exact ih

/-- Of the paths to two entries of a directory that one comes first whose name does. -/
theorem EndsWith.before_eq (hp : p.EndsWith above name) (hq : q.EndsWith above other) :
    p.before q = decide (name < other) := by
  rw [before, hp.parts_eq, hq.parts_eq, partsBefore_append]
  simp [partsBefore, Part.before]

theorem EndsWith.fileName? (h : p.EndsWith above name) : p.fileName? = some name := by
  rw [Path.fileName?, h.parts_eq, List.getLast?_concat]

/-- The extension of a file whose name is more than a dot and an extension. -/
theorem EndsWith.extension? {stem ending : List Char} (h : p.EndsWith above name)
    (hname : name.toList = stem ++ '.' :: ending) (hstem : stem ≠ []) (hending : '.' ∉ ending) :
    p.extension? = some (String.ofList ending) := by
  have hsplit : Text.splitString '.' name =
      (Text.splitOn '.' stem).map String.ofList ++ [String.ofList ending] := by
    rw [Text.splitString, hname, Text.splitOn_append, Text.splitOn_of_notMem hending,
      List.map_append, List.map_singleton]
  have hpieces := Text.flatMap_splitOn '.' stem
  rw [Path.extension?, h.fileName?]
  simp only [Option.bind_eq_bind, Option.bind_some, hsplit, List.reverse_append,
    List.reverse_singleton, List.singleton_append]
  cases hreverse : (Text.splitOn '.' stem).reverse with
  | nil => exact absurd (List.reverse_eq_nil_iff.1 hreverse) (Text.splitOn_ne_nil '.' stem)
  | cons last front =>
      rw [← List.map_reverse, hreverse]
      cases front with
      | cons _ _ => rfl
      | nil =>
          rw [List.reverse_eq_iff.1 hreverse] at hpieces
          obtain rfl : last = stem := by simpa using hpieces
          have hne : (String.ofList last).isEmpty = false := by
            rw [Bool.eq_false_iff]
            intro hempty
            have := congrArg String.toList (String.isEmpty_iff.1 hempty)
            rw [String.toList_ofList] at this
            exact hstem this
          simp [hne]

section Sorting

variable {f : String → Path} {names sorted : List String}

theorem insertSorted_map (h : ∀ m ∈ names, (f name).before (f m) = decide (name < m))
    (hnew : name ∉ names) :
    insertSorted (f name) (names.map f) = (insertName name names).map f := by
  induction names with
  | nil => rfl
  | cons first rest ih =>
      obtain ⟨hfirst, hrest⟩ := List.forall_mem_cons.1 h
      obtain ⟨hne, hnew⟩ := not_or.1 (mt List.mem_cons.2 hnew)
      rw [List.map_cons, insertSorted, insertName, hfirst, if_neg (Ne.symm hne), ih hrest hnew]
      by_cases hlt : name < first <;> simp [hlt]

/-- Paths that are in the order of their names are sorted by sorting the names. -/
theorem sort_map (h : ∀ m ∈ names, ∀ n ∈ names, (f m).before (f n) = decide (m < n))
    (hnodup : names.Nodup) : sort (names.map f) = (sortedNames names).map f := by
  have hfold (more sorted : List String) (hsub : more ++ sorted ⊆ names)
      (hnodup : (more ++ sorted).Nodup) :
      (more.map f).foldl (fun acc p => insertSorted p acc) (sorted.map f) =
        (more.foldl (fun acc n => insertName n acc) sorted).map f := by
    induction more generalizing sorted with
    | nil => rfl
    | cons name rest ih =>
        obtain ⟨hname, hrest⟩ := List.cons_subset.1 hsub
        have hnew : name ∉ sorted := fun hmem =>
          (List.nodup_cons.1 hnodup).1 (List.mem_append_right rest hmem)
        have hinsert : insertSorted (f name) (sorted.map f) = (insertName name sorted).map f :=
          insertSorted_map (fun m hm => h name hname m (hrest (List.mem_append_right rest hm))) hnew
        have hperm : (rest ++ insertName name sorted).Perm (name :: rest ++ sorted) :=
          ((insertName_perm hnew).append_left rest).trans List.perm_middle
        rw [List.map_cons, List.foldl_cons, List.foldl_cons, hinsert]
        exact ih _ (fun m hm => hsub (hperm.subset hm)) (hperm.nodup_iff.2 hnodup)
  rw [sort, sortedNames]
  exact hfold names [] (by simp) (by simpa using hnodup)

end Sorting

end Path
end ArtifactFlow
