import ArtifactFlow.Storage.Disk
import ArtifactFlow.Storage.Location

/-!
Where the bytes of artifacts are kept. The scheme of a location chooses a backend: a directory of
the file system, or a table that lives as long as the store. Reading leaves a store as it is;
writing gives a new one, also when it fails halfway.
-/

namespace ArtifactFlow

/-- A place for bytes. -/
inductive Backend where
  /-- Files, with relative paths starting at a directory. -/
  | files (root : Path)
  /-- A table from location paths to contents. -/
  | memory (contents : Fields ByteArray)

/-- A file system and the backends, by scheme. -/
structure Store where
  disk : Disk
  backends : Fields Backend

namespace Backend

/-- Plain paths and `file` locations are files below a directory, `memory` locations a table. -/
def defaults (dataRoot : Path) : Fields Backend :=
  [("", .files dataRoot), ("file", .files dataRoot), ("memory", .memory [])]

end Backend

/-- Moving a finished file to its place was refused. -/
def moveRefused : Failure :=
  .message "<persist error>"

namespace Disk

def readArtifact (d : Disk) (p : Path) : Result ByteArray :=
  match d.read p with
  | .ok bytes => .ok bytes
  | .error trouble => .error (.within ("Failed to read artifact file: " ++ p.text) trouble.failure)

/-- The directory that an artifact's file is put into. -/
def artifactDirectory (p : Path) : Path :=
  match p.parent? with
  | some parent => if parent.text.isEmpty then ⟨"."⟩ else parent
  | none => ⟨"."⟩

/-- Writes an artifact's file as a whole, making the directories above it. -/
def writeArtifact (d : Disk) (p : Path) (bytes : ByteArray) : Result Unit × Disk :=
  let parent := artifactDirectory p
  match d.createDirectories parent with
  | (.error trouble, d) =>
      (.error (.within ("Failed to create directory: " ++ parent.text) trouble.failure), d)
  | (.ok (), d) =>
      match d.replaceFile? p bytes with
      | some d => (.ok (), d)
      | none => (.error (.within ("Failed to move artifact into place: " ++ p.text) moveRefused), d)

end Disk

namespace Store

def schemes (s : Store) : List String :=
  sortedNames (Fields.keys s.backends)

/-- Gives a scheme, as it is written, a backend of its own. -/
def register (s : Store) (scheme : String) (backend : Backend) : Store :=
  { s with backends := Fields.insert scheme backend s.backends }

def backend (s : Store) (l : Location) : Result Backend :=
  match Fields.get? l.scheme s.backends with
  | some b => .ok b
  | none => Fault.throw (.unknownBackend l.scheme l.text)

def readAt (s : Store) (l : Location) : Result ByteArray := do
  match ← s.backend l with
  | .files root => s.disk.readArtifact (root.join ⟨l.path⟩)
  | .memory contents =>
      match Fields.get? l.path contents with
      | some bytes => .ok bytes
      | none => .error (.message ("nothing stored at '" ++ l.text ++ "'"))

/-- Puts bytes at a location, in place of those that are there. -/
def writeAt (s : Store) (l : Location) (bytes : ByteArray) : Result Unit × Store :=
  match s.backend l with
  | .error e => (.error e, s)
  | .ok (.files root) =>
      let (result, disk) := s.disk.writeArtifact (root.join ⟨l.path⟩) bytes
      (result, { s with disk })
  | .ok (.memory contents) =>
      (.ok (), s.register l.scheme (.memory (Fields.insert l.path bytes contents)))

def read (s : Store) (raw : String) : Result ByteArray :=
  s.readAt (.parse raw)

def write (s : Store) (raw : String) (bytes : ByteArray) : Result Unit × Store :=
  s.writeAt (.parse raw) bytes

end Store
end ArtifactFlow
