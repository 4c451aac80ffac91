import ArtifactFlow.Value.Basic

/-!
Laying one mapping over another. `Mapping.merge` goes down into keys that hold mappings on both
sides; `Mapping.replace` works on the top level alone. A key that is there keeps its place, and new
keys follow in the order of the right side.
-/

namespace ArtifactFlow.Mapping

mutual

/-- The value that stands under a key once `incoming` is laid over `present`: a merge of two
mappings, else the incoming value. -/
def overlay (present : Option Value) : Value → Value
  | .mapping fields =>
      match present with
      | some (.mapping into) => .mapping (mergeInto into fields)
      | _ => .mapping fields
  | v => v
  termination_by structural v => v

/-- Lays the entries of the second mapping over the first, one after another. -/
def mergeInto (into : Mapping) : Mapping → Mapping
  | [] => into
  | (key, value) :: rest =>
      mergeInto (Fields.insert key (overlay (Fields.get? key into) value) into) rest
  termination_by structural fields => fields

end

/-- Merges the right mapping into the left one, key by key wherever both hold mappings. -/
def merge (left right : Mapping) : Mapping :=
  mergeInto left right

/-- Replaces top-level keys of the left mapping by those of the right one. -/
def replace (left right : Mapping) : Mapping :=
  Fields.insertAll left right

end ArtifactFlow.Mapping
