import ArtifactFlow.Value.Basic

/-!
What a craft needs and what it makes. The order of crafts in a pipeline follows from their
contracts alone.
-/

namespace ArtifactFlow

/-- Where a required input comes from: the catalog, earlier crafts of the run, or arguments. -/
inductive InputKind where
  | artifact
  | volatile
  | param
  deriving DecidableEq, Repr

def InputKind.label : InputKind → String
  | .artifact => "artifact"
  | .volatile => "volatile"
  | .param => "param"

/-- Where a produced output goes: into the catalog, or to later crafts of the run. -/
inductive OutputKind where
  | artifact
  | volatile
  deriving DecidableEq, Repr

def OutputKind.label : OutputKind → String
  | .artifact => "artifact"
  | .volatile => "volatile"

structure Requirement where
  name : String
  kind : InputKind
  /-- Stands in for a missing argument, or for an artifact that cannot be loaded. -/
  default? : Option Value

structure Production where
  name : String
  kind : OutputKind
  deriving DecidableEq, Repr

/-- Requirements and productions, in the order of declaration. -/
structure Contract where
  required : List Requirement
  produced : List Production

namespace Contract

def empty : Contract := ⟨[], []⟩

def dependencies (c : Contract) : List Requirement :=
  c.required.filter (·.kind ≠ .param)

def productionsOf (c : Contract) (kind : OutputKind) : List String :=
  (c.produced.filter (·.kind = kind)).map (·.name)

def producedNames (c : Contract) : List String :=
  c.produced.map (·.name)

def produces (c : Contract) (name : String) : Bool :=
  c.producedNames.contains name

def paramDefaults (c : Contract) : Mapping :=
  Fields.ofEntries (c.required.filterMap fun r =>
    if r.kind = .param then r.default?.map fun v => (r.name, v) else none)

/-- The first name of a list that stands in it before as well. -/
def firstRepeated? (seen : List String) : List String → Option String
  | [] => none
  | name :: rest =>
      if seen.contains name then some name else firstRepeated? (name :: seen) rest

def toValue (c : Contract) : Value :=
  .mapping [
    ("required", .list (c.required.map fun r => .mapping
      ([("name", .string r.name), ("kind", .string r.kind.label)] ++
        r.default?.toList.map fun v => ("default", v)))),
    ("produced", .list (c.produced.map fun p => .mapping
      [("name", .string p.name), ("kind", .string p.kind.label)]))]

end Contract
end ArtifactFlow
