import ArtifactFlow.Proofs.Run.Exec
import ArtifactFlow.Proofs.Catalog.Arguments
import Mathlib.Data.List.Induction

/-!
The arguments of a run as its crafts see them. Under the name of a craft stand arguments for it
alone, so that no other craft sees what stands there.
-/

namespace ArtifactFlow

/-- What the arguments of a run are sorted into. -/
structure Context.Sorts (c : Context) (args : Mapping) (crafts : List String) : Prop where
  distinct : Fields.Distinct c.shared
  shared : ∀ key, Fields.get? key c.shared = if key ∈ crafts then none else Fields.get? key args
  block : ∀ craft ∈ crafts, c.block? craft = Fields.get? craft args >>= Value.asMapping?

namespace Context

variable {c d : Context} {args others : Mapping} {crafts : List String}

theorem Sorts.addArgument (h : c.Sorts args crafts) {key : String} {value : Value}
    (hnew : Fields.get? key args = none) (hadd : c.addArgument crafts key value = .ok d) :
    d.Sorts (args ++ [(key, value)]) crafts := by
  have hget (other : String) : Fields.get? other (args ++ [(key, value)]) =
      if key = other then some value else Fields.get? other args := by
    rw [Fields.get?_append, Fields.get?]
    by_cases heq : key = other
    · simp [← heq, hnew]
    · simp [heq]
  by_cases hkey : key ∈ crafts
  · cases value with
    | mapping fields =>
        simp only [Context.addArgument, List.contains_iff_mem.2 hkey, if_true] at hadd
        obtain rfl := Except.ok.inj hadd
        refine ⟨h.distinct, fun other => ?_, fun craft hcraft => ?_⟩
        · rw [h.shared, hget]
          by_cases hother : other ∈ crafts
          · rw [if_pos hother, if_pos hother]
          · have hne : key ≠ other := fun heq => hother (heq ▸ hkey)
            rw [if_neg hother, if_neg hother, if_neg hne]
        · rw [hget, block?, Fields.get?_insert]
          by_cases heq : key = craft
          · simp [heq, Value.asMapping?]
          · rw [if_neg heq, if_neg heq]
            exact h.block craft hcraft
    | null | bool | int | float | string | list =>
        simp [Context.addArgument, hkey] at hadd
  · simp only [Context.addArgument, List.contains_iff_mem, hkey, if_false] at hadd
    obtain rfl := Except.ok.inj hadd
    refine ⟨Fields.distinct_insert h.distinct value, fun other => ?_, fun craft hcraft => ?_⟩
    · rw [hget, Fields.get?_insert, h.shared]
      by_cases heq : key = other
      · simp [← heq, hkey]
      · rw [if_neg heq, if_neg heq]
    · have hne : key ≠ craft := fun heq => hkey (heq ▸ hcraft)
      rw [hget, if_neg hne]
      exact h.block craft hcraft

theorem sorts_of_ofArgs (distinct : Fields.Distinct args) (h : ofArgs args crafts = .ok c) :
    c.Sorts args crafts := by
  induction args using List.reverseRecOn generalizing c with
  | nil =>
      obtain rfl := Except.ok.inj h
      exact ⟨List.nodup_nil, fun key => (ite_self none).symm, fun craft _ => rfl⟩
  | append_singleton args entry ih =>
      obtain ⟨key, value⟩ := entry
      obtain ⟨distinct, hnew⟩ := Fields.distinct_snoc.1 distinct
      rw [ofArgs, List.foldlM_append] at h
      obtain ⟨b, hb, h⟩ := bind_eq_ok.1 h
      obtain ⟨d, hd, h⟩ := bind_eq_ok.1 h
      obtain rfl := Except.ok.inj h
      exact (ih distinct hb).addArgument (Fields.get?_eq_none_iff.2 hnew) hd

end Context

/-- What a craft is given does not depend on what stands under the names of other crafts. -/
theorem Craft.namespaceFor_agree {craft : Craft} {c d : Context} {args others : Mapping}
    {crafts : List String} (hc : c.Sorts args crafts) (hd : d.Sorts others crafts)
    (hcraft : craft.name ∈ crafts)
    (elsewhere : ∀ key, key ∉ crafts ∨ key = craft.name →
      Fields.get? key args = Fields.get? key others) :
    (craft.namespaceFor c []).Agree (craft.namespaceFor d []) := by
  have hshared : (Mapping.replace craft.contract.paramDefaults c.shared).Agree
      (Mapping.replace craft.contract.paramDefaults d.shared) := by
    intro key
    rw [Mapping.replace, Fields.get?_insertAll _ hc.distinct, hc.shared]
    rw [Mapping.replace, Fields.get?_insertAll _ hd.distinct, hd.shared]
    by_cases hkey : key ∈ crafts
    · rw [if_pos hkey, if_pos hkey]
    · rw [if_neg hkey, if_neg hkey, elsewhere key (.inl hkey)]
  have hblock : c.block? craft.name = d.block? craft.name := by
    rw [hc.block _ hcraft, hd.block _ hcraft, elsewhere _ (.inr rfl)]
  simp only [namespaceFor, hblock]
  cases d.block? craft.name with
  | none => exact hshared
  | some fields => exact hshared.insertAll fields

end ArtifactFlow
