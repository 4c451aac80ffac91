import ArtifactFlow.Proofs.Fields
import ArtifactFlow.Proofs.Names

/-!
Maps whose keys ascend. Sorted insertion keeps them so, and they are determined by their lookups
alone.
-/

namespace ArtifactFlow.Fields

variable {α : Type u} {f g : Fields α}

def Ascending (fields : Fields α) : Prop :=
  (keys fields).Pairwise (· < ·)

theorem ascending_nil : Ascending ([] : Fields α) :=
  List.Pairwise.nil

theorem keys_insertSorted (key : String) (value : α) (fields : Fields α) :
    keys (insertSorted key value fields) = insertName key (keys fields) := by
  induction fields with
  | nil => rfl
  | cons entry rest ih =>
      obtain ⟨k, v⟩ := entry
      have hkeys : keys ((k, v) :: rest) = k :: keys rest := rfl
      rw [insertSorted, hkeys, insertName]
      by_cases hk : k = key
      · rw [if_pos hk, if_pos hk]
        rfl
      · rw [if_neg hk, if_neg hk]
        by_cases hlt : key < k
        · rw [if_pos hlt, if_pos hlt]
          rfl
        · rw [if_neg hlt, if_neg hlt, ← ih]
          rfl

theorem Ascending.insertSorted (h : f.Ascending) (key : String) (value : α) :
    (insertSorted key value f).Ascending := by
  rw [Ascending, keys_insertSorted]
  exact pairwise_insertName h

theorem Ascending.distinct (h : f.Ascending) : f.Distinct := by
  refine List.Pairwise.imp ?_ h
  rintro a _ hlt rfl
  exact String.lt_irrefl a hlt

/-- Ascending maps with the same lookups are the same. -/
theorem Ascending.ext (hf : f.Ascending) (hg : g.Ascending) (agree : f.Agree g) : f = g := by
  refine eq_of_keys_eq hf.distinct (hf.eq_of_mem_iff hg fun key => ?_) agree
  rw [mem_keys_iff, mem_keys_iff, agree]

end ArtifactFlow.Fields
