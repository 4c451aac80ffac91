import ArtifactFlow.Catalog.Adapter
import ArtifactFlow.Catalog.Nearest
import ArtifactFlow.Placeholder.Render

/-!
Catalogs of declared artifacts. To load or save an artifact its declaration is resolved with the
arguments of the call, and the adapter of its type does the rest. A catalog itself never changes
by that; what changes is the store.
-/

namespace ArtifactFlow

/-- Declarations and adapters by name, and what static placeholders refer to. Declarations stand
in ascending order of names. -/
structure Catalog where
  config : StaticConfig
  declarations : Fields Declaration
  adapters : Fields Adapter

namespace Catalog

/-- No declarations yet, and the adapters of the built-in types. -/
def empty (config : StaticConfig) : Catalog :=
  ⟨config, [], Adapter.builtin⟩

/-- Adds a declaration, whose name must be new. -/
def insert (c : Catalog) (d : Declaration) : Except Fault Catalog :=
  if Fields.contains d.name c.declarations then
    .error (.configuration ("artifact '" ++ d.name ++ "' is declared more than once"))
  else .ok { c with declarations := Fields.insertSorted d.name d c.declarations }

/-- Gives a type of artifacts an adapter, in place of the one it had. -/
def registerAdapter (c : Catalog) (artifactType : String) (adapter : Adapter) : Catalog :=
  { c with adapters := Fields.insert artifactType adapter c.adapters }

def names (c : Catalog) : List String :=
  Fields.keys c.declarations

def types (c : Catalog) : List String :=
  sortedNames (Fields.keys c.adapters)

def contains (c : Catalog) (name : String) : Bool :=
  Fields.contains name c.declarations

def declaration? (c : Catalog) (name : String) : Option Declaration :=
  Fields.get? name c.declarations

def lookup (c : Catalog) (name : String) : Except Fault Declaration :=
  match c.declaration? name with
  | some d => .ok d
  | none => .error (.unknownArtifact name (nearestName? name c.names))

/-- What becomes of one field of a declaration. A nullable field is `null` where an argument is
missing. -/
def resolveField (c : Catalog) (d : Declaration) (artifact : String) (args : Mapping)
    (field : String) (value : Value) : Except Fault Value :=
  match renderValue ⟨c.config, args, artifact⟩ (.call (d.isExpression field)) value with
  | .ok v => .ok v
  | .error (.unresolvedDynamic name artifact) =>
      if d.isNullable field then .ok .null else .error (.unresolvedDynamic name artifact)
  | .error e => .error e

def resolveFields (c : Catalog) (d : Declaration) (artifact : String) (args : Mapping) :
    Mapping → Except Fault Mapping
  | [] => .ok []
  | (field, value) :: rest => do
      let v ← c.resolveField d artifact args field value
      return (field, v) :: (← c.resolveFields d artifact args rest)

def resolve (c : Catalog) (name : String) (args : Mapping) : Except Fault ResolvedDeclaration := do
  let d ← c.lookup name
  let extra ← c.resolveFields d name args d.extra
  return ⟨d.name, d.artifactType, extra, d.loadOptions, d.saveOptions⟩

def adapterFor (c : Catalog) (d : ResolvedDeclaration) : Except Fault Adapter :=
  match Fields.get? d.artifactType c.adapters with
  | some adapter => .ok adapter
  | none => .error (.unknownAdapter d.name d.artifactType)

/-- What is needed to load or save an artifact: its adapter and the request to it. -/
def prepare (c : Catalog) (name : String) (args : Mapping) : Except Fault (Adapter × Request) := do
  let d ← c.resolve name args
  let adapter ← c.adapterFor d
  return (adapter, ⟨d, args⟩)

def adapterFault (r : Request) (source : Failure) : Fault :=
  .adapter r.declaration.name r.declaration.artifactType source

def load (c : Catalog) (name : String) (args : Mapping) (s : Store) : Except Fault Value := do
  let (adapter, request) ← c.prepare name args
  (adapter.load request s).mapError (adapterFault request)

def save (c : Catalog) (name : String) (payload : Value) (args : Mapping) (s : Store) :
    Except Fault Unit × Store :=
  match c.prepare name args with
  | .error e => (.error e, s)
  | .ok (adapter, request) =>
      let (result, s) := adapter.save request payload s
      (result.mapError (adapterFault request), s)

end Catalog
end ArtifactFlow
