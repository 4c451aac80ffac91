import ArtifactFlow.Catalog.Codec
import ArtifactFlow.Catalog.Declaration
import ArtifactFlow.Storage.Store

/-!
Adapters read and write the artifacts of one type. The file adapters keep a payload at the
location under `path`, by a codec.
-/

namespace ArtifactFlow

/-- What an adapter is asked for: an artifact, resolved with the arguments of a call. -/
structure Request where
  declaration : ResolvedDeclaration
  args : Mapping

/-- Reads and writes artifacts. Reading leaves the store as it is. -/
structure Adapter where
  load : Request → Store → Result Value
  save : Request → Value → Store → Result Unit × Store

namespace Request

def path (r : Request) : Result String :=
  match r.declaration.path? with
  | some path => .ok path
  | none =>
      .error (.message ("artifact '" ++ r.declaration.name ++ "' has no string 'path' field"))

end Request

namespace Adapter

def loadFile (codec : Codec) (r : Request) (s : Store) : Result Value := do
  let path ← r.path
  let bytes ← s.read path
  Result.context ("Failed to decode " ++ path) (codec.decode bytes)

/-- Writes a payload to the artifact's location. Nothing is written unless the payload can be. -/
def saveFile (codec : Codec) (r : Request) (payload : Value) (s : Store) : Result Unit × Store :=
  match r.path with
  | .error e => (.error e, s)
  | .ok path =>
      match codec.encode r.declaration.saveOptions payload with
      | .error e => (.error e, s)
      | .ok bytes => s.write path bytes

def ofCodec (codec : Codec) : Adapter :=
  ⟨loadFile codec, saveFile codec⟩

def builtin : Fields Adapter :=
  [("json", ofCodec (.structured .json)), ("text", ofCodec .plain),
    ("toml", ofCodec (.structured .toml)), ("yaml", ofCodec (.structured .yaml))]

end Adapter
end ArtifactFlow
