import ArtifactFlow.Text.Split

/-!
Paths of the file system. A path keeps the text that it was written with, since messages show it;
what it means is given by its parts. Repeated slashes and inner dots are no parts.
-/

namespace ArtifactFlow

/-- A path as it was written. -/
structure Path where
  text : String
  deriving DecidableEq, Repr

namespace Path

/-- One step of a path. -/
inductive Part where
  | root
  /-- A dot at the front of a relative path. -/
  | here
  | up
  | name (text : String)
  deriving DecidableEq, Repr

namespace Part

/-- The place of a kind of part in the order of paths. -/
def rank : Part → Nat
  | .root => 0
  | .here => 1
  | .up => 2
  | .name _ => 3

/-- Whether a part comes strictly before another: by kind, names among themselves by text. -/
def before (a b : Part) : Bool :=
  match a, b with
  | .name s, .name t => s < t
  | _, _ => a.rank < b.rank

end Part

def isAbsolute (p : Path) : Bool :=
  p.text.toList.head? = some '/'

def pieces (p : Path) : List String :=
  Text.splitString '/' p.text

/-- The part that a piece stands for. Only the first piece can be the root or a leading dot. -/
def partOf? (first : Bool) : String → Option Part
  | "" => if first then some .root else none
  | "." => if first then some .here else none
  | ".." => some .up
  | s => some (.name s)

/-- The parts of the remaining pieces, each with the text of the path up to its end. `written` is
the text in front of the next piece. -/
def spell (first : Bool) (written : String) : List String → List (Part × String)
  | [] => []
  | piece :: rest =>
      let ending := written ++ piece
      let more := spell false (ending ++ "/") rest
      match partOf? first piece with
      | some .root => (.root, "/") :: more
      | some part => (part, ending) :: more
      | none => more

/-- The parts of a path, each with the text of the path up to its end. -/
def spelled (p : Path) : List (Part × String) :=
  if p.text.isEmpty then [] else spell true "" p.pieces

def parts (p : Path) : List Part :=
  p.spelled.map (·.1)

/-- The path without its last part, and without the slashes and dots that stood before it. The
root and the empty path have no parent; a single relative part has the empty one. -/
def parent? (p : Path) : Option Path :=
  match p.spelled.reverse with
  | [] | (.root, _) :: _ => none
  | [_] => some ⟨""⟩
  | _ :: (_, text) :: _ => some ⟨text⟩

/-- The path itself, its parent, the parent of that, and so on. -/
def ancestors (p : Path) : List Path :=
  match p.spelled.reverse with
  | [] => [p]
  | (.root, _) :: _ => [p]
  | _ :: above => p :: above.map (fun (_, text) => ⟨text⟩) ++ (if p.isAbsolute then [] else [⟨""⟩])

def fileName? (p : Path) : Option String :=
  match p.parts.getLast? with
  | some (.name s) => some s
  | _ => none

/-- What follows the last dot of the file name; a dot in front does not count. -/
def extension? (p : Path) : Option String := do
  let pieces := Text.splitString '.' (← p.fileName?)
  match pieces.reverse with
  | ending :: before :: [] => if before.isEmpty then none else some ending
  | ending :: _ :: _ => some ending
  | _ => none

/-- The path reached from `base` by `p`, which wins if it is absolute. -/
def join (base p : Path) : Path :=
  if p.isAbsolute || base.text.isEmpty then p
  else if base.text.toList.getLast? = some '/' then ⟨base.text ++ p.text⟩
  else ⟨base.text ++ "/" ++ p.text⟩

def partsBefore : List Part → List Part → Bool
  | [], [] => false
  | [], _ :: _ => true
  | _ :: _, [] => false
  | a :: as, b :: bs => if a.before b then true else if b.before a then false else partsBefore as bs

def before (p q : Path) : Bool :=
  partsBefore p.parts q.parts

def insertSorted (p : Path) : List Path → List Path
  | [] => [p]
  | q :: rest => if p.before q then p :: q :: rest else q :: insertSorted p rest

def sort (paths : List Path) : List Path :=
  paths.foldl (fun acc p => insertSorted p acc) []

end Path
end ArtifactFlow
