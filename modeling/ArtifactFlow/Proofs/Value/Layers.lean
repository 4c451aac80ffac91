import ArtifactFlow.Proofs.Text.Split
import ArtifactFlow.Proofs.Value.Merge
import ArtifactFlow.StaticConfig

/-!
What a dotted path leads to in two layers at once. As long as no list stands on the way, the place
that it leads to depends on what the layers hold at that very place, and on whether the upper one
breaks off before it.
-/

namespace ArtifactFlow

namespace Value

def IsMapping (v : Value) : Prop :=
  ∃ fields, v = .mapping fields

def IsList (v : Value) : Prop :=
  ∃ items, v = .list items

theorem not_isList {fields : Mapping} : ¬ (Value.mapping fields).IsList :=
  fun ⟨_, h⟩ => nomatch h

theorem not_not_isMapping {fields : Mapping} : ¬ ¬ (Value.mapping fields).IsMapping :=
  not_not_intro ⟨fields, rfl⟩

/-- A path passes a value of some kind before it comes to its end. -/
def Passes (kind : Value → Prop) (segments : List String) (root : Value) : Prop :=
  ∃ front rest v, segments = front ++ rest ∧ rest ≠ [] ∧ descend? front root = some v ∧ kind v

variable {kind : Value → Prop} {segment : String} {segments : List String} {root : Value}

theorem descend?_cons (segment : String) (segments : List String) (root : Value) :
    descend? (segment :: segments) root = (child? segment root).bind (descend? segments) := rfl

theorem not_passes_nil : ¬ Passes kind [] root := by
  intro ⟨front, rest, v, happend, hne, _⟩
  exact hne (List.append_eq_nil_iff.1 happend.symm).2

theorem passes_cons : Passes kind (segment :: segments) root ↔
    kind root ∨ ∃ v, child? segment root = some v ∧ Passes kind segments v := by
  constructor
  · intro ⟨front, rest, w, happend, hne, hw, hkind⟩
    cases front with
    | nil =>
        obtain rfl := Option.some.inj hw
        exact .inl hkind
    | cons first front =>
        obtain ⟨rfl, rfl⟩ := List.cons.inj happend
        obtain ⟨v, hv, hw⟩ := Option.bind_eq_some_iff.1 hw
        exact .inr ⟨v, hv, front, rest, w, rfl, hne, hw, hkind⟩
  · intro h
    cases h with
    | inl hkind => exact ⟨[], segment :: segments, root, rfl, List.cons_ne_nil _ _, rfl, hkind⟩
    | inr hbelow =>
        obtain ⟨v, hv, front, rest, w, rfl, hne, hw, hkind⟩ := hbelow
        refine ⟨segment :: front, rest, w, rfl, hne, ?_, hkind⟩
        rw [descend?_cons, hv]
        exact hw

theorem descend?_mapping (fields : Mapping) : descend? (segment :: segments) (.mapping fields) =
    (Fields.get? segment fields).bind (descend? segments) := rfl

/-- A path that does not start at the kind passes it further down. -/
theorem passes_below {fields : Mapping} (start : ¬ kind (.mapping fields)) :
    Passes kind (segment :: segments) (.mapping fields) ↔
      ∃ v, Fields.get? segment fields = some v ∧ Passes kind segments v := by
  rw [passes_cons, or_iff_right start]
  rfl

theorem passes_of_kind (h : kind root) (hne : segments ≠ []) : Passes kind segments root :=
  ⟨[], segments, root, rfl, hne, rfl, h⟩

/-- Nothing lies below a value that is neither a mapping nor a list. -/
theorem descend?_of_scalar (hmapping : ¬ root.IsMapping) (hlist : ¬ Passes IsList segments root)
    (hne : segments ≠ []) : descend? segments root = none := by
  cases segments with
  | nil => exact absurd rfl hne
  | cons segment segments =>
      cases root with
      | list items => exact absurd (passes_of_kind ⟨items, rfl⟩ hne) hlist
      | mapping fields => exact absurd ⟨fields, rfl⟩ hmapping
      | _ => rfl

theorem descend?_ne_mapping (hmapping : ¬ root.IsMapping) (hlist : ¬ Passes IsList segments root)
    (fields : Mapping) : descend? segments root ≠ some (.mapping fields) := by
  intro h
  cases segments with
  | nil => exact hmapping ⟨fields, Option.some.inj h⟩
  | cons segment segments =>
      rw [descend?_of_scalar hmapping hlist (List.cons_ne_nil _ _)] at h
      exact nomatch h

end Value

/-- What stands at a place where one layer lies over another, from what each of them holds there.
The upper layer may have broken off on the way to the place. -/
structure Layered (lower upper : Option Value) (broken : Prop) (both : Option Value) :
    Prop where
  replaced : ∀ v, upper = some v → ¬ v.IsMapping → both = some v
  merged : ∀ below above, lower = some (.mapping below) → upper = some (.mapping above) →
    both = some (.mapping (Mapping.merge below above))
  alone : ∀ above, upper = some (.mapping above) → (∀ below, lower ≠ some (.mapping below)) →
    both = some (.mapping above)
  kept : upper = none → ¬ broken → both = lower
  hidden : upper = none → broken → both = none

namespace Mapping

open Value

theorem overlay_of_not_isMapping (present : Option Value) {v : Value} (h : ¬ v.IsMapping) :
    overlay present v = v := by
  cases v with
  | mapping fields => exact absurd ⟨fields, rfl⟩ h
  | _ => rfl

theorem overlay_mapping_of_not_isMapping {present : Option Value}
    (h : ∀ below, present ≠ some (.mapping below)) (fields : Mapping) :
    overlay present (.mapping fields) = .mapping fields := by
  rw [overlay]
  exact h

/-- Where the layers do not both hold a mapping, the place holds what the upper one holds. -/
theorem layered_of_apart {lower upper : Option Value} {broken : Prop}
    (apart : ∀ below above, lower = some (.mapping below) → upper ≠ some (.mapping above))
    (hnone : upper = none → ¬ broken → lower = none) : Layered lower upper broken upper where
  replaced _ h _ := h
  merged below above hlower hupper := absurd hupper (apart below above hlower)
  alone _ h _ := h
  kept h hbroken := h.trans (hnone h hbroken).symm
  hidden h _ := h

theorem layered_descend? {segments : List String} {below above : Mapping}
    (regular : Regular (.mapping above)) (hbelow : ¬ Passes IsList segments (.mapping below))
    (habove : ¬ Passes IsList segments (.mapping above)) :
    Layered (descend? segments (.mapping below)) (descend? segments (.mapping above))
      (Passes (¬ ·.IsMapping) segments (.mapping above))
      (descend? segments (.mapping (merge below above))) := by
  induction segments generalizing below above with
  | nil =>
      constructor
      case merged =>
        intro below above hlower hupper
        obtain ⟨⟩ := Option.some.inj hlower
        obtain ⟨⟩ := Option.some.inj hupper
        rfl
      case replaced => exact fun v h hv => absurd ⟨above, (Option.some.inj h).symm⟩ hv
      case alone => exact fun _ _ h => absurd rfl (h below)
      case kept => exact fun h => nomatch h
      case hidden => exact fun h => nomatch h
  | cons segment segments ih =>
      rw [passes_below not_isList] at hbelow habove
      rw [passes_below not_not_isMapping, descend?_mapping, descend?_mapping, descend?_mapping,
        get?_merge regular.distinct]
      cases hupper : Fields.get? segment above with
      | none =>
          constructor
          case kept => exact fun _ _ => rfl
          case hidden => exact fun _ ⟨_, h, _⟩ => nomatch h
          case replaced => exact fun _ h => nomatch h
          case merged => exact fun _ _ _ h => nomatch h
          case alone => exact fun _ h => nomatch h
      | some v =>
          have hv : ¬ Passes IsList segments v := fun h => habove ⟨v, hupper, h⟩
          simp only [Option.bind_some, Option.some.injEq, exists_eq_left']
          by_cases hmapping : v.IsMapping
          · obtain ⟨fields, rfl⟩ := hmapping
            by_cases hlower : ∃ lower, Fields.get? segment below = some (.mapping lower)
            · obtain ⟨lower, hlower⟩ := hlower
              rw [hlower]
              exact ih (regular.get? hupper) (fun h => hbelow ⟨_, hlower, h⟩) hv
            · have scalar {w : Value} (hw : Fields.get? segment below = some w) :
                  ¬ w.IsMapping ∧ ¬ Passes IsList segments w :=
                ⟨fun ⟨lower, h⟩ => hlower ⟨lower, h ▸ hw⟩, fun h => hbelow ⟨w, hw, h⟩⟩
              rw [overlay_mapping_of_not_isMapping (not_exists.1 hlower)]
              refine layered_of_apart (fun lower _ h => ?_) fun hnone _ => ?_
              · obtain ⟨w, hw, hmapping⟩ := Option.bind_eq_some_iff.1 h
                exact absurd hmapping (descend?_ne_mapping (scalar hw).1 (scalar hw).2 lower)
              · cases hw : Fields.get? segment below with
                | none => rfl
                | some w =>
                    have hne : segments ≠ [] := by
                      rintro rfl
                      exact nomatch hnone
                    exact descend?_of_scalar (scalar hw).1 (scalar hw).2 hne
          · rw [overlay_of_not_isMapping _ hmapping]
            refine layered_of_apart (fun _ above _ => descend?_ne_mapping hmapping hv above) ?_
            intro hnone hbroken
            have hne : segments ≠ [] := by
              rintro rfl
              exact nomatch hnone
            exact absurd (passes_of_kind hmapping hne) hbroken

theorem lookup?_eq_descend? (root : Mapping) (path : String) :
    lookup? root path = descend? (Text.splitString '.' path) (.mapping root) := by
  rw [lookup?]
  cases hsegments : Text.splitString '.' path with
  | nil => exact absurd (List.map_eq_nil_iff.1 hsegments) (Text.splitOn_ne_nil '.' path.toList)
  | cons first rest => rfl

end Mapping

/-- What the configuration holds at a dotted path, from what its two layers hold there, if neither
of them holds a list before the end of the path. -/
theorem StaticConfig.layered_get? (config : StaticConfig)
    (regular : Value.Regular (.mapping config.overrides)) (path : String)
    (lists : ∀ layer ∈ [config.base, config.overrides],
      ¬ Value.Passes Value.IsList (Text.splitString '.' path) (.mapping layer)) :
    Layered (Mapping.lookup? config.base path) (Mapping.lookup? config.overrides path)
      (Value.Passes (¬ ·.IsMapping) (Text.splitString '.' path) (.mapping config.overrides))
      (config.get? path) := by
  obtain ⟨hbase, hoverrides, -⟩ := by simpa only [List.forall_mem_cons] using lists
  rw [get?, merged, Mapping.lookup?_eq_descend?, Mapping.lookup?_eq_descend?,
    Mapping.lookup?_eq_descend?]
  exact Mapping.layered_descend? regular hbase hoverrides

namespace Teahouse

/-- The local layer changes the size of the kettle and leaves the tea open. -/
def config : StaticConfig where
  base := [("kettle", .mapping [("size", .int 4), ("lid", .string "tin")]),
    ("tea", .mapping [("leaf", .string "black")])]
  overrides := [("kettle", .mapping [("size", .int 6)]), ("tea", .null)]

theorem regular : Value.Regular (.mapping config.overrides) := by
  have size : Value.Regular (.mapping [("size", .int 6)]) :=
    .mapping (by simp [Fields.Distinct, Fields.keys]) (by simp [Value.Regular.int])
  exact .mapping (by simp [Fields.Distinct, Fields.keys, config])
    (by simp [config, size, Value.Regular.null])

end Teahouse

open Teahouse Value in
theorem StaticConfig.layered_get?_teahouse :
    config.get? "kettle" = some (.mapping [("size", .int 6), ("lid", .string "tin")]) ∧
      config.get? "kettle.size" = some (.int 6) ∧
      config.get? "kettle.lid" = some (.string "tin") ∧
      config.get? "tea.leaf" = none := by
  have split : Text.splitString '.' "kettle" = ["kettle"] ∧
      Text.splitString '.' "kettle.size" = ["kettle", "size"] ∧
      Text.splitString '.' "kettle.lid" = ["kettle", "lid"] ∧
      Text.splitString '.' "tea.leaf" = ["tea", "leaf"] := ⟨rfl, rfl, rfl, rfl⟩
  refine ⟨(layered_get? config regular "kettle" ?_).merged _ _ rfl rfl,
    (layered_get? config regular "kettle.size" ?_).replaced _ rfl nofun,
    (layered_get? config regular "kettle.lid" ?_).kept rfl ?_,
    (layered_get? config regular "tea.leaf" ?_).hidden rfl ?_⟩
  -- What is left says what stands on the way along each of the paths.
  all_goals simp [split, config, passes_cons, not_passes_nil, child?, Fields.get?, IsList, IsMapping]

end ArtifactFlow
