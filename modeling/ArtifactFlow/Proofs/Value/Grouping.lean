import ArtifactFlow.Proofs.Value.Layers

/-!
Merges repeated and regrouped. To merge a mapping into itself, or into something a second time,
changes nothing, neither values nor the order of keys. Of three layers it makes no difference which
two are merged first, unless the one in the middle cuts off a mapping that both others hold.
-/

namespace ArtifactFlow

/-- The value at the end of a chain of keys, which all but the last lead to mappings. -/
def Value.under? : List String → Value → Option Value
  | [], v => some v
  | key :: keys, .mapping fields => (Fields.get? key fields).bind (under? keys)
  | _ :: _, _ => none

/-- Some chain of keys leads to mappings in the lower and the upper one of three layers, and to
something that is not a mapping in the layer between them. -/
def Mapping.Sandwiched (lower middle upper : Mapping) : Prop :=
  ∃ keys below between above, Value.under? keys (.mapping lower) = some (.mapping below) ∧
    Value.under? keys (.mapping middle) = some between ∧ ¬ between.IsMapping ∧
    Value.under? keys (.mapping upper) = some (.mapping above)

namespace Mapping

variable {into fields left right lower middle upper : Mapping}

theorem distinct_mergeInto (distinct : Fields.Distinct into) (fields : Mapping) :
    Fields.Distinct (mergeInto into fields) := by
  induction fields generalizing into with
  | nil => exact distinct
  | cons entry rest ih =>
      obtain ⟨k, v⟩ := entry
      exact ih (Fields.distinct_insert distinct _)

theorem keys_mergeInto (distinct : Fields.Distinct fields) (into : Mapping) :
    Fields.keys (mergeInto into fields) =
      Fields.keys into ++ (Fields.keys fields).filter (· ∉ Fields.keys into) := by
  induction fields generalizing into with
  | nil => exact (List.append_nil _).symm
  | cons entry rest ih =>
      obtain ⟨k, v⟩ := entry
      obtain ⟨hk, hrest⟩ := List.nodup_cons.1 distinct
      rw [mergeInto, ih hrest, Fields.keys_insert]
      change _ = _ ++ (k :: Fields.keys rest).filter _
      by_cases hold : k ∈ Fields.keys into
      · rw [if_pos hold, List.filter_cons_of_neg (by simpa using hold)]
      · -- No later key of `fields` is `k`, so taking it in hides none of them.
        have hlater : (Fields.keys rest).filter (· ∉ Fields.keys into ++ [k]) =
            (Fields.keys rest).filter (· ∉ Fields.keys into) := by
          apply List.filter_congr
          intro key hkey
          have hne : key ≠ k := by
            rintro rfl
            exact hk hkey
          simp [hne]
        rw [if_neg hold, hlater, List.filter_cons_of_pos (by simpa using hold),
          List.append_assoc, List.singleton_append]

theorem distinct_merge (distinct : Fields.Distinct left) (right : Mapping) :
    Fields.Distinct (merge left right) :=
  distinct_mergeInto distinct right

/-- Keys of the left side keep their places, and those that the right side adds follow in its
order. -/
theorem keys_merge (distinct : Fields.Distinct right) (left : Mapping) :
    Fields.keys (merge left right) =
      Fields.keys left ++ (Fields.keys right).filter (· ∉ Fields.keys left) :=
  keys_mergeInto distinct left

theorem keys_merge_of_subset (distinct : Fields.Distinct right)
    (hsub : Fields.keys right ⊆ Fields.keys left) :
    Fields.keys (merge left right) = Fields.keys left := by
  rw [keys_merge distinct, List.filter_eq_nil_iff.2, List.append_nil]
  intro key hkey
  simpa using hsub hkey

theorem subset_keys_merge (distinct : Fields.Distinct right) (left : Mapping) :
    Fields.keys right ⊆ Fields.keys (merge left right) := by
  intro key hkey
  rw [keys_merge distinct, List.mem_append, List.mem_filter]
  by_cases hold : key ∈ Fields.keys left
  · exact .inl hold
  · exact .inr ⟨hkey, by simpa using hold⟩

/-- Merges of the same mappings in two groupings have the same keys in the same order. -/
theorem keys_merge_merge (hmiddle : Fields.Distinct middle)
    (hupper : Fields.Distinct upper) :
    Fields.keys (merge (merge lower middle) upper) =
      Fields.keys (merge lower (merge middle upper)) := by
  rw [keys_merge hupper, keys_merge hmiddle, keys_merge (distinct_merge hmiddle upper),
    keys_merge hupper, List.filter_append, List.filter_filter, List.append_assoc]
  congr 2
  apply List.filter_congr
  intro key _
  simp only [List.mem_append, List.mem_filter, decide_eq_true_eq]
  grind

/-- What a value makes of itself is the value again. -/
theorem overlay_self {v : Value} (regular : v.Regular) : overlay (some v) v = v := by
  induction regular with
  | @mapping fields distinct _ ih =>
      change Value.mapping (merge fields fields) = .mapping fields
      congr 1
      refine Fields.eq_of_keys_eq (distinct_merge distinct _)
        (keys_merge_of_subset distinct (List.Subset.refl _)) fun key => ?_
      rw [get?_merge distinct]
      cases hget : Fields.get? key fields with
      | none => rfl
      | some v => exact congrArg some (ih (key, v) (Fields.mem_of_get?_eq_some hget))
  | _ => rfl

/-- Laying a value over something a second time changes nothing more. -/
theorem overlay_overlay_self {v : Value} (regular : v.Regular) {present : Option Value}
    (hpresent : ∀ w, present = some w → w.Regular) :
    overlay (some (overlay present v)) v = overlay present v := by
  induction regular generalizing present with
  | @mapping fields distinct entries ih =>
      by_cases hmapping : ∃ below, present = some (.mapping below)
      · obtain ⟨below, rfl⟩ := hmapping
        have hbelow := hpresent _ rfl
        have hmerged := distinct_merge hbelow.distinct fields
        change Value.mapping (merge (merge below fields) fields) = .mapping (merge below fields)
        congr 1
        refine Fields.eq_of_keys_eq (distinct_merge hmerged fields)
          (keys_merge_of_subset distinct (subset_keys_merge distinct below)) fun key => ?_
        rw [get?_merge distinct]
        cases hget : Fields.get? key fields with
        | none => rfl
        | some v =>
            rw [get?_merge distinct, hget]
            exact congrArg some (ih (key, v) (Fields.mem_of_get?_eq_some hget)
              fun w hw => hbelow.get? hw)
      · rw [overlay_mapping_of_not_isMapping (not_exists.1 hmapping)]
        exact overlay_self (.mapping distinct entries)
  | _ => rfl

theorem under?_cons (key : String) (keys : List String) (fields : Mapping) :
    Value.under? (key :: keys) (.mapping fields) =
      (Fields.get? key fields).bind (Value.under? keys) := rfl

theorem exists_mapping_of_under? {keys : List String} {v : Value} {fields : Mapping}
    (h : Value.under? keys v = some (.mapping fields)) : ∃ above, v = .mapping above := by
  cases keys with
  | nil => exact ⟨fields, Option.some.inj h⟩
  | cons key keys =>
      cases v with
      | mapping above => exact ⟨above, rfl⟩
      | _ => exact nomatch h

/-- The mapping that is cut off stands under some key itself, or is one of those inside three
mappings that stand under it. -/
theorem sandwiched_iff : Sandwiched lower middle upper ↔ ∃ key a w c,
    Fields.get? key lower = some (.mapping a) ∧ Fields.get? key middle = some w ∧
      Fields.get? key upper = some (.mapping c) ∧ ∀ b, w = .mapping b → Sandwiched a b c := by
  constructor
  · intro ⟨keys, below, between, above, hbelow, hbetween, hmapping, habove⟩
    cases keys with
    | nil => exact absurd ⟨middle, (Option.some.inj hbetween).symm⟩ hmapping
    | cons key keys =>
        rw [under?_cons, Option.bind_eq_some_iff] at hbelow hbetween habove
        obtain ⟨u, hu, hbelow⟩ := hbelow
        obtain ⟨w, hw, hbetween⟩ := hbetween
        obtain ⟨v, hv, habove⟩ := habove
        obtain ⟨a, rfl⟩ := exists_mapping_of_under? hbelow
        obtain ⟨c, rfl⟩ := exists_mapping_of_under? habove
        refine ⟨key, a, w, c, hu, hw, hv, ?_⟩
        rintro b rfl
        exact ⟨keys, below, between, above, hbelow, hbetween, hmapping, habove⟩
  · intro ⟨key, a, w, c, ha, hw, hc, hdeep⟩
    by_cases hmapping : w.IsMapping
    · obtain ⟨b, rfl⟩ := hmapping
      obtain ⟨keys, below, between, above, hbelow, hbetween, hmapping, habove⟩ := hdeep b rfl
      refine ⟨key :: keys, below, between, above, ?_, ?_, hmapping, ?_⟩
      · rwa [under?_cons, ha]
      · rwa [under?_cons, hw]
      · rwa [under?_cons, hc]
    · refine ⟨[key], a, w, c, ?_, ?_, hmapping, ?_⟩
      · rw [under?_cons, ha, Option.bind_some, Value.under?]
      · rw [under?_cons, hw, Option.bind_some, Value.under?]
      · rw [under?_cons, hc, Option.bind_some, Value.under?]

theorem get?_merge_eq_or (distinct : Fields.Distinct right) (left : Mapping)
    (key : String) : Fields.get? key (merge left right) =
      ((Fields.get? key right).map (overlay (Fields.get? key left))).or (Fields.get? key left) := by
  rw [get?_merge distinct]
  cases Fields.get? key right <;> rfl

/-- What three layers make of one place does not depend on the grouping, if that is so for three
mappings in it and the middle layer does not cut off a mapping there. -/
theorem overlay_assoc {x y : Option Value} {v : Value}
    (below : ∀ a b c, x = some (.mapping a) → y = some (.mapping b) → v = .mapping c →
      merge (merge a b) c = merge a (merge b c))
    (apart : ∀ a w c, x = some (.mapping a) → y = some w → v = .mapping c → w.IsMapping) :
    overlay ((y.map (overlay x)).or x) v = overlay x (overlay y v) := by
  by_cases hv : v.IsMapping
  · obtain ⟨c, rfl⟩ := hv
    cases y with
    | none => rfl
    | some w =>
        by_cases hw : w.IsMapping
        · obtain ⟨b, rfl⟩ := hw
          by_cases hx : ∃ a, x = some (.mapping a)
          · obtain ⟨a, rfl⟩ := hx
            exact congrArg Value.mapping (below a b c rfl rfl rfl)
          · have alone := overlay_mapping_of_not_isMapping (not_exists.1 hx)
            rw [Option.map_some, Option.some_or, alone b]
            exact (alone (merge b c)).symm
        · have alone : ∀ a, x ≠ some (.mapping a) := fun a ha => hw (apart a w c ha rfl rfl)
          have hnone : ∀ b, some w ≠ some (.mapping b) :=
            fun b hb => hw ⟨b, Option.some.inj hb⟩
          simp only [Option.map_some, Option.some_or, overlay_of_not_isMapping x hw,
            overlay_mapping_of_not_isMapping hnone, overlay_mapping_of_not_isMapping alone]
  · simp only [overlay_of_not_isMapping _ hv]

/-- How three layers are grouped makes a difference only where the middle one cuts a mapping off. -/
theorem merge_assoc_of_not_sandwiched (hlower : Value.Regular (.mapping lower))
    (hmiddle : Value.Regular (.mapping middle)) (hupper : Value.Regular (.mapping upper))
    (apart : ¬ Sandwiched lower middle upper) :
    merge (merge lower middle) upper = merge lower (merge middle upper) := by
  generalize hv : Value.mapping upper = v at hupper
  induction hupper generalizing lower middle upper with
  | @mapping fields distinct _ ih =>
      obtain rfl : upper = fields := Value.mapping.inj hv
      refine Fields.eq_of_keys_eq (distinct_merge (distinct_merge hlower.distinct _) _)
        (keys_merge_merge hmiddle.distinct distinct) fun key => ?_
      rw [get?_merge distinct, get?_merge_eq_or hmiddle.distinct,
        get?_merge_eq_or (distinct_merge hmiddle.distinct _), get?_merge_eq_or distinct]
      cases hget : Fields.get? key upper with
      | none => rfl
      | some v =>
          refine congrArg some (overlay_assoc ?_ ?_)
          · intro a b c ha hb hc
            have inner : ¬ Sandwiched a b c := by
              intro h
              refine apart (sandwiched_iff.2 ⟨key, a, .mapping b, c, ha, hb, hc ▸ hget, ?_⟩)
              rintro _ ⟨⟩
              exact h
            exact ih (key, v) (Fields.mem_of_get?_eq_some hget) (hlower.get? ha)
              (hmiddle.get? hb) inner hc.symm
          · intro a w c ha hw hc
            by_contra hmapping
            exact apart (sandwiched_iff.2 ⟨key, a, w, c, ha, hw, hc ▸ hget,
              fun b hb => absurd ⟨b, hb⟩ hmapping⟩)
  | _ => exact nomatch hv

/-- Regular mappings can be merged again and in other groups, as far as no mapping is cut off. -/
theorem merge_idempotent_associative {a b c : Mapping} (ha : Value.Regular (.mapping a))
    (hb : Value.Regular (.mapping b)) (hc : Value.Regular (.mapping c)) :
    merge a a = a ∧ merge (merge a b) b = merge a b ∧
      (¬ Sandwiched a b c → merge (merge a b) c = merge a (merge b c)) := by
  refine ⟨?_, ?_, merge_assoc_of_not_sandwiched ha hb hc⟩
  · exact Value.mapping.inj (overlay_self ha)
  · exact Value.mapping.inj (overlay_overlay_self hb fun w hw => Option.some.inj hw ▸ ha)

namespace Canteen

def house : Mapping :=
  [("soup", .mapping [("salt", .int 2), ("leek", .string "white")]), ("bread", .string "rye")]

def week : Mapping :=
  [("fish", .null), ("soup", .mapping [("salt", .int 1)])]

def today : Mapping :=
  [("soup", .mapping [("dill", .bool true)]), ("bread", .string "oat")]

/-- Takes soup off the menu, which cuts off what the house says about it. -/
def closed : Mapping :=
  [("soup", .null)]

theorem regular_house : Value.Regular (.mapping house) := by
  have soup : Value.Regular (.mapping [("salt", .int 2), ("leek", .string "white")]) :=
    .mapping (by simp [Fields.Distinct, Fields.keys])
      (by simp [Value.Regular.int, Value.Regular.string])
  exact .mapping (by simp [Fields.Distinct, Fields.keys, house])
    (by simp [house, soup, Value.Regular.string])

theorem regular_week : Value.Regular (.mapping week) := by
  have soup : Value.Regular (.mapping [("salt", .int 1)]) :=
    .mapping (by simp [Fields.Distinct, Fields.keys]) (by simp [Value.Regular.int])
  exact .mapping (by simp [Fields.Distinct, Fields.keys, week])
    (by simp [week, soup, Value.Regular.null])

theorem regular_today : Value.Regular (.mapping today) := by
  have soup : Value.Regular (.mapping [("dill", .bool true)]) :=
    .mapping (by simp [Fields.Distinct, Fields.keys]) (by simp [Value.Regular.bool])
  exact .mapping (by simp [Fields.Distinct, Fields.keys, today])
    (by simp [today, soup, Value.Regular.string])

/-- Soup is on all three menus, and what stands in the middle one is about something else. -/
theorem not_sandwiched : ¬ Sandwiched house week today := by
  rw [sandwiched_iff]
  intro ⟨key, a, w, c, ha, hw, hc, hdeep⟩
  obtain rfl : key = "soup" := by
    by_contra hkey
    simp [today, Fields.get?, Ne.symm hkey] at hc
  cases hw
  cases hc
  obtain ⟨next, _, _, _, _, _, hnext, _⟩ := sandwiched_iff.1 (hdeep _ rfl)
  simp [Fields.get?] at hnext

end Canteen

open Canteen in
theorem merge_idempotent_associative_canteen :
    merge house house = house ∧ merge (merge house week) week = merge house week ∧
      merge (merge house week) today = merge house (merge week today) ∧
      merge (merge house closed) today ≠ merge house (merge closed today) := by
  obtain ⟨hself, hagain, hassoc⟩ :=
    merge_idempotent_associative regular_house regular_week regular_today
  refine ⟨hself, hagain, hassoc not_sandwiched, ?_⟩
  simp [merge, mergeInto, overlay, house, closed, today, Fields.get?, Fields.insert]

end Mapping
end ArtifactFlow
