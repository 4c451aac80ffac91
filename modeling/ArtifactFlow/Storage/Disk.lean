import ArtifactFlow.Failure.Basic
import ArtifactFlow.Fields
import ArtifactFlow.Storage.Path

/-!
A file system as a value: a tree of directories and files, and the directory that relative paths
start from. Names are looked up step by step, so that a path leads through directories that are
there or to nothing at all, also where it goes up again.
-/

namespace ArtifactFlow

/-- A file with its bytes, or a directory with its entries. -/
inductive FileTree where
  | file (content : ByteArray)
  | directory (entries : List (String × FileTree))

namespace FileTree

instance : Inhabited FileTree := ⟨.directory []⟩

def empty : FileTree := .directory []

def isFile : FileTree → Bool
  | .file _ => true
  | .directory _ => false

def isDirectory : FileTree → Bool
  | .file _ => false
  | .directory _ => true

def entries : FileTree → Fields FileTree
  | .file _ => []
  | .directory entries => entries

def at? : List String → FileTree → Option FileTree
  | [], tree => some tree
  | name :: rest, tree => Fields.get? name tree.entries >>= at? rest

/-- Puts a tree at the end of a chain of names, whose directories must be there. -/
def put (new : FileTree) : List String → FileTree → FileTree
  | [], _ => new
  | name :: rest, .directory entries =>
      .directory (Fields.insert name (put new rest ((Fields.get? name entries).getD empty)) entries)
  | _ :: _, .file content => .file content

/-- The longest name that an entry can have, in bytes. -/
def nameLimit : Nat := 255

/-- The place that a chain of pieces leads to from the place `here`. Empty pieces and dots stay at
a directory, two dots go up. -/
def walk (tree : FileTree) : List String → List String → Except FileTrouble (List String)
  | here, [] => .ok here
  | here, piece :: rest =>
      match at? here tree with
      | some (.directory entries) =>
          if piece = "" || piece = "." then walk tree here rest
          else if piece = ".." then walk tree here.dropLast rest
          else if nameLimit < piece.utf8ByteSize then .error .invalidFilename
          else if Fields.contains piece entries then walk tree (here ++ [piece]) rest
          else .error .notFound
      | some (.file _) => .error .notADirectory
      | none => .error .notFound

end FileTree

/-- A file system and its working directory. -/
structure Disk where
  tree : FileTree
  /-- The names that lead from the root to the working directory. -/
  workingDirectory : List String

namespace Disk

/-- The shortest text that is too long for a path, in bytes. -/
def pathBound : Nat := 4096

/-- What keeps a text from being a path at all. -/
def malformed? (p : Path) : Option FileTrouble :=
  if p.text.toList.contains '\x00' then some .invalidInput
  else if p.text.isEmpty then some .notFound
  else if pathBound ≤ p.text.utf8ByteSize then some .invalidFilename
  else none

def start (d : Disk) (p : Path) : List String :=
  if p.isAbsolute then [] else d.workingDirectory

/-- The names that lead from the root to what a path denotes. -/
def locate (d : Disk) (p : Path) : Except FileTrouble (List String) :=
  match malformed? p with
  | some trouble => .error trouble
  | none => d.tree.walk (d.start p) p.pieces

def lookup (d : Disk) (p : Path) : Except FileTrouble FileTree := do
  match FileTree.at? (← d.locate p) d.tree with
  | some tree => .ok tree
  | none => .error .notFound

def exists? (d : Disk) (p : Path) : Bool :=
  (d.lookup p).toOption.isSome

def isFile (d : Disk) (p : Path) : Bool :=
  (d.lookup p).toOption.any FileTree.isFile

def isDirectory (d : Disk) (p : Path) : Bool :=
  (d.lookup p).toOption.any FileTree.isDirectory

def entryNames (d : Disk) (p : Path) : List String :=
  match d.lookup p with
  | .ok tree => Fields.keys tree.entries
  | .error _ => []

def read (d : Disk) (p : Path) : Except FileTrouble ByteArray := do
  match ← d.lookup p with
  | .file content => .ok content
  | .directory _ => .error .isADirectory

/-- The pieces of a path in front of its last one, and the last one; slashes and dots at the end
do not count as pieces if `loose`. -/
def splitLast (loose : Bool) (p : Path) : List String × String :=
  let reversed := p.pieces.reverse
  let reversed := if loose then reversed.dropWhile (· = "") else reversed
  match reversed with
  | [] => ([], "")
  | last :: above => (above.reverse, last)

/-- Whether a piece of a path names an entry. -/
def isName (piece : String) : Bool :=
  !(piece = "" || piece = "." || piece = "..")

def createDirectory (d : Disk) (p : Path) : Except FileTrouble Disk := do
  if let some trouble := malformed? p then throw trouble
  let (above, last) := splitLast true p
  let parent ← d.tree.walk (d.start p) above
  match FileTree.at? parent d.tree with
  | some (.directory entries) =>
      if !isName last then .error .alreadyExists
      else if FileTree.nameLimit < last.utf8ByteSize then .error .invalidFilename
      else if Fields.contains last entries then .error .alreadyExists
      else .ok { d with tree := FileTree.put .empty (parent ++ [last]) d.tree }
  | some (.file _) => .error .notADirectory
  | none => .error .notFound

/-- Makes the first of a list of paths a directory; each path is the parent of the one before it
and is made as well if it is missing. What was made before a refusal stays. -/
def createChain (d : Disk) : List Path → Except FileTrouble Unit × Disk
  | [] => (.ok (), d)
  | p :: above =>
      if p.text.isEmpty then (.ok (), d)
      else
        match d.createDirectory p with
        | .ok made => (.ok (), made)
        | .error .notFound =>
            match d.createChain above with
            | (.error trouble, made) => (.error trouble, made)
            | (.ok (), made) =>
                match made.createDirectory p with
                | .ok made => (.ok (), made)
                | .error trouble =>
                    (if made.isDirectory p then .ok () else .error trouble, made)
        | .error trouble => (if d.isDirectory p then .ok () else .error trouble, d)

/-- Makes a path a directory, with all that is missing above it. -/
def createDirectories (d : Disk) (p : Path) : Except FileTrouble Unit × Disk :=
  d.createChain p.ancestors

/-- Puts a file in place of what a path denotes, in a directory that is there. A directory cannot
be replaced by a file. -/
def replaceFile? (d : Disk) (p : Path) (content : ByteArray) : Option Disk := do
  if (malformed? p).isSome then none
  let (above, last) := splitLast false p
  if !isName last || FileTree.nameLimit < last.utf8ByteSize then none
  let parent ← (d.tree.walk (d.start p) above).toOption
  let .directory entries ← FileTree.at? parent d.tree | none
  if (Fields.get? last entries).any FileTree.isDirectory then none
  some { d with tree := FileTree.put (.file content) (parent ++ [last]) d.tree }

end Disk
end ArtifactFlow
