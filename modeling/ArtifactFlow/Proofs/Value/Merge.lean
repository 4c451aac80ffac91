import ArtifactFlow.Proofs.Fields
import ArtifactFlow.Value.Merge

/-!
Merged mappings key by key. Under a key that the right side has stands what its value makes of the
one on the left, and every other key keeps its value. The right side is taken to be regular, since
a key that came twice would be laid over itself.
-/

namespace ArtifactFlow

/-- No mapping inside a value has a key twice. -/
inductive Value.Regular : Value → Prop where
  | null : Regular .null
  | bool (b : Bool) : Regular (.bool b)
  | int (n : Int) : Regular (.int n)
  | float (d : Double) : Regular (.float d)
  | string (s : String) : Regular (.string s)
  | list {items : List Value} : (∀ v ∈ items, Regular v) → Regular (.list items)
  | mapping {fields : Mapping} : Fields.Distinct fields →
      (∀ entry ∈ fields, Regular entry.2) → Regular (.mapping fields)

namespace Value.Regular

variable {fields : Mapping}

theorem distinct (h : Regular (.mapping fields)) : Fields.Distinct fields := by
  cases h with
  | mapping distinct _ => exact distinct

theorem get? (h : Regular (.mapping fields)) {key : String} {v : Value}
    (hv : Fields.get? key fields = some v) : v.Regular := by
  cases h with
  | mapping _ entries => exact entries (key, v) (Fields.mem_of_get?_eq_some hv)

end Value.Regular

namespace Mapping

theorem get?_mergeInto {fields : Mapping} (distinct : Fields.Distinct fields) (into : Mapping)
    (key : String) : Fields.get? key (mergeInto into fields) =
      match Fields.get? key fields with
      | some v => some (overlay (Fields.get? key into) v)
      | none => Fields.get? key into := by
  induction fields generalizing into with
  | nil => rfl
  | cons entry rest ih =>
      obtain ⟨k, v⟩ := entry
      obtain ⟨hk, hrest⟩ := List.nodup_cons.1 distinct
      rw [mergeInto, ih hrest, Fields.get?, Fields.get?_insert]
      by_cases hkey : k = key
      · subst hkey
        rw [Fields.get?_eq_none_iff.2 hk, if_pos rfl, if_pos rfl]
      · rw [if_neg hkey, if_neg hkey]

theorem get?_merge {right : Mapping} (distinct : Fields.Distinct right) (left : Mapping)
    (key : String) : Fields.get? key (merge left right) =
      match Fields.get? key right with
      | some v => some (overlay (Fields.get? key left) v)
      | none => Fields.get? key left :=
  get?_mergeInto distinct left key

end Mapping
end ArtifactFlow
