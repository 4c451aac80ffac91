import ArtifactFlow.Proofs.Text.Split

/-!
Text cut at every separator. The pieces hold no separator, and a text is known by them: put
together with separators they give it back.
-/

namespace ArtifactFlow.Text

variable {sep : Char} {s piece : List Char} {pieces : List (List Char)}

theorem splitOn_cons_self (sep : Char) (s : List Char) :
    splitOn sep (sep :: s) = [] :: splitOn sep s := by
  rw [splitOn, if_pos rfl]

theorem splitOn_cons_of_ne {c : Char} (h : c ≠ sep) (s : List Char) :
    ∃ first rest, splitOn sep s = first :: rest ∧ splitOn sep (c :: s) = (c :: first) :: rest := by
  obtain ⟨first, rest, hs⟩ := List.exists_cons_of_ne_nil (splitOn_ne_nil sep s)
  exact ⟨first, rest, hs, by rw [splitOn, if_neg h, hs]⟩

theorem splitOn_append (sep : Char) (s t : List Char) :
    splitOn sep (s ++ sep :: t) = splitOn sep s ++ splitOn sep t := by
  induction s with
  | nil => exact splitOn_cons_self sep t
  | cons c s ih =>
      by_cases hc : c = sep
      · subst hc
        rw [List.cons_append, splitOn_cons_self, splitOn_cons_self, ih, List.cons_append]
      · obtain ⟨first, rest, hs, hcons⟩ := splitOn_cons_of_ne hc s
        obtain ⟨first', rest', hs', hcons'⟩ := splitOn_cons_of_ne hc (s ++ sep :: t)
        rw [ih, hs, List.cons_append] at hs'
        obtain ⟨rfl, rfl⟩ := List.cons_eq_cons.1 hs'
        rw [List.cons_append, hcons', hcons, List.cons_append]

theorem notMem_of_mem_splitOn (h : piece ∈ splitOn sep s) : sep ∉ piece := by
  induction s generalizing piece with
  | nil =>
      obtain rfl := List.mem_singleton.1 h
      exact List.not_mem_nil
  | cons c s ih =>
      by_cases hc : c = sep
      · subst hc
        rw [splitOn_cons_self] at h
        obtain rfl | h := List.mem_cons.1 h
        · exact List.not_mem_nil
        · exact ih h
      · obtain ⟨first, rest, hs, hcons⟩ := splitOn_cons_of_ne hc s
        rw [hcons] at h
        rw [hs] at ih
        obtain rfl | h := List.mem_cons.1 h
        · exact mt List.mem_cons.1 (not_or.2 ⟨Ne.symm hc, ih List.mem_cons_self⟩)
        · exact ih (List.mem_cons_of_mem first h)

/-- A separator behind each piece gives the text, with one separator more. -/
theorem flatMap_splitOn (sep : Char) (s : List Char) :
    (splitOn sep s).flatMap (· ++ [sep]) = s ++ [sep] := by
  induction s with
  | nil => rfl
  | cons c s ih =>
      by_cases hc : c = sep
      · subst hc
        rw [splitOn_cons_self, List.flatMap_cons, ih]
        rfl
      · obtain ⟨first, rest, hs, hcons⟩ := splitOn_cons_of_ne hc s
        rw [hs, List.flatMap_cons] at ih
        rw [hcons, List.flatMap_cons, List.cons_append, List.cons_append, ih, List.cons_append]

theorem splitOn_flatMap (h : ∀ piece ∈ pieces, sep ∉ piece) (hlast : sep ∉ piece) :
    splitOn sep (pieces.flatMap (· ++ [sep]) ++ piece) = pieces ++ [piece] := by
  induction pieces with
  | nil => exact splitOn_of_notMem hlast
  | cons first rest ih =>
      obtain ⟨hfirst, hrest⟩ := List.forall_mem_cons.1 h
      rw [List.flatMap_cons, List.append_assoc, List.append_assoc, List.singleton_append,
        splitOn_append, splitOn_of_notMem hfirst, ih hrest, List.cons_append, List.nil_append,
        List.cons_append]

end ArtifactFlow.Text
