import ArtifactFlow.Fields
import Mathlib.Data.List.Sort

/-!
Ascending lists of names. Such a list is determined by its members, so what is sorted may be
compared by membership alone.
-/

namespace ArtifactFlow

variable {names others : List String} {name other : String}

theorem mem_insertName : other ∈ insertName name names ↔ other = name ∨ other ∈ names := by
  induction names with
  | nil => simp [insertName]
  | cons first rest ih =>
      rw [insertName]
      by_cases heq : first = name
      · simp [heq]
      · by_cases hlt : name < first
        · simp [heq, hlt]
        · simp only [heq, hlt, if_false, List.mem_cons, ih, or_left_comm]

theorem pairwise_insertName (h : names.Pairwise (· < ·)) :
    (insertName name names).Pairwise (· < ·) := by
  induction names with
  | nil => exact List.pairwise_singleton _ _
  | cons first rest ih =>
      obtain ⟨hfirst, hrest⟩ := List.pairwise_cons.1 h
      rw [insertName]
      by_cases heq : first = name
      · simpa [heq] using h
      · by_cases hlt : name < first
        · simp only [heq, hlt, if_false, if_true]
          refine List.pairwise_cons.2 ⟨?_, h⟩
          intro x hx
          cases List.mem_cons.1 hx with
          | inl hx => exact hx ▸ hlt
          | inr hx => exact String.lt_trans hlt (hfirst x hx)
        · simp only [heq, hlt, if_false]
          refine List.pairwise_cons.2 ⟨?_, ih hrest⟩
          intro x hx
          cases mem_insertName.1 hx with
          | inl hx =>
              by_contra hnot
              rw [hx] at hnot
              exact heq (String.le_antisymm (String.not_lt.1 hlt) (String.not_lt.1 hnot))
          | inr hx => exact hfirst x hx

theorem insertName_perm (h : name ∉ names) : (insertName name names).Perm (name :: names) := by
  induction names with
  | nil => exact .refl _
  | cons first rest ih =>
      obtain ⟨hne, hrest⟩ := not_or.1 (mt List.mem_cons.2 h)
      rw [insertName, if_neg (Ne.symm hne)]
      split
      · exact .refl _
      · exact ((ih hrest).cons first).trans (.swap name first rest)

theorem mem_sortedNames : name ∈ sortedNames names ↔ name ∈ names := by
  have hfold (sorted : List String) :
      name ∈ names.foldl (fun acc n => insertName n acc) sorted ↔ name ∈ sorted ∨ name ∈ names := by
    induction names generalizing sorted with
    | nil => simp
    | cons first rest ih =>
        rw [List.foldl_cons, ih, mem_insertName, List.mem_cons]
        tauto
  simp [sortedNames, hfold]

theorem pairwise_sortedNames (names : List String) : (sortedNames names).Pairwise (· < ·) := by
  have hfold (sorted : List String) (h : sorted.Pairwise (· < ·)) :
      (names.foldl (fun acc n => insertName n acc) sorted).Pairwise (· < ·) := by
    induction names generalizing sorted with
    | nil => exact h
    | cons first rest ih => exact ih _ (pairwise_insertName h)
  exact hfold [] .nil

/-- Sorting forgets order and repetitions. -/
theorem sortedNames_congr (h : ∀ name, name ∈ names ↔ name ∈ others) :
    sortedNames names = sortedNames others := by
  apply (pairwise_sortedNames names).eq_of_mem_iff (pairwise_sortedNames others)
  intro name
  rw [mem_sortedNames, mem_sortedNames, h]

end ArtifactFlow
