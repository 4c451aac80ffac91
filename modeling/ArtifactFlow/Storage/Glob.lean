import ArtifactFlow.Storage.Disk

/-!
Patterns for file names and the files that they find. A pattern is a path whose names may hold
wildcards; `**` as a whole name leads through directories of any depth. Names that start with a
dot are like all others, and case counts.
-/

namespace ArtifactFlow.Glob

/-- A character, or all characters between two. -/
inductive CharRange where
  | single (c : Char)
  | between (low high : Char)
  deriving DecidableEq, Repr

def CharRange.contains (r : CharRange) (c : Char) : Bool :=
  match r with
  | .single d => c = d
  | .between low high => low ≤ c && c ≤ high

/-- What a part of a pattern stands for. -/
inductive Token where
  | char (c : Char)
  /-- Any one character. -/
  | anyChar
  /-- Any text, the empty one included. -/
  | anyText
  /-- Any chain of directories. -/
  | anyDepth
  | oneOf (ranges : List CharRange)
  | noneOf (ranges : List CharRange)
  deriving DecidableEq, Repr

def ranges : List Char → List CharRange
  | low :: '-' :: high :: rest => .between low high :: ranges rest
  | c :: rest => .single c :: ranges rest
  | [] => []

/-- A pattern token and the rest of the pattern behind it; `none` where a bracket is not closed or
stars stand where they may not. `atName` holds at the front of a name. -/
def token? (atName : Bool) : List Char → Option (Token × List Char)
  | [] => none
  | '?' :: rest => some (.anyChar, rest)
  | '*' :: '*' :: rest =>
      match rest with
      | [] => if atName then some (.anyDepth, []) else none
      | '/' :: rest => if atName then some (.anyDepth, rest) else none
      | _ => none
  | '*' :: rest => some (.anyText, rest)
  | '[' :: '!' :: c :: rest =>
      (Text.cutAt? [']'] rest).map fun (inner, after) => (.noneOf (ranges (c :: inner)), after)
  | '[' :: c :: rest =>
      if c = '!' then none
      else (Text.cutAt? [']'] rest).map fun (inner, after) => (.oneOf (ranges (c :: inner)), after)
  | '[' :: [] => none
  | c :: rest => some (.char c, rest)

/-- The tokens of a pattern, of which there are no more than characters. -/
def tokens? : Nat → Bool → List Char → Option (List Token)
  | _, _, [] => some []
  | 0, _, _ :: _ => none
  | bound + 1, atName, s => do
      let (t, rest) ← token? atName s
      let atName := t = .char '/' || t = .anyDepth
      return t :: (← tokens? bound atName rest)

def parse? (pattern : String) : Option (List Token) :=
  tokens? pattern.length true pattern.toList

def fits : List Token → List Char → Bool
  | [], s => s.isEmpty
  | .char d :: ts, c :: s => c = d && fits ts s
  | .anyChar :: ts, _ :: s => fits ts s
  | .oneOf rs :: ts, c :: s => rs.any (·.contains c) && fits ts s
  | .noneOf rs :: ts, c :: s => !rs.any (·.contains c) && fits ts s
  | .anyText :: ts, [] | .anyDepth :: ts, [] => fits ts []
  | .anyText :: ts, c :: s => fits ts (c :: s) || fits (.anyText :: ts) s
  | .anyDepth :: ts, c :: s => fits ts (c :: s) || fits (.anyDepth :: ts) s
  | _ :: _, [] => false
  termination_by ts s => ts.length + s.length

def Token.char? : Token → Option Char
  | .char c => some c
  | _ => none

def literal? (ts : List Token) : Option String :=
  (ts.mapM Token.char?).map String.ofList

/-- Whether tokens stand for directories of any depth. -/
def isDeep (ts : List Token) : Bool :=
  ts.contains .anyDepth

/-- The path of an entry. The working directory is left out in front of a name. -/
def entryPath (base : Path) (name : String) : Path :=
  if base.text = "." then ⟨name⟩ else base.join ⟨name⟩

mutual

/-- The chains of names that lead to what is below a tree. -/
def below : FileTree → List (List String)
  | .file _ => []
  | .directory entries => belowEntries entries
  termination_by structural tree => tree

def belowEntries : List (String × FileTree) → List (List String)
  | [] => []
  | (name, tree) :: rest => [name] :: (below tree).map (name :: ·) ++ belowEntries rest
  termination_by structural entries => entries

end

def descendants (d : Disk) (base : Path) : List Path :=
  match d.lookup base with
  | .ok tree => (below tree).map (List.foldl entryPath base)
  | .error _ => []

/-- The last of several names in a row that stand for any depth do for all of them. -/
def dropDeep : List (List Token) → List (List Token)
  | ts :: rest => if isDeep ts then dropDeep rest else ts :: rest
  | [] => []

/-- Where names in front of a wildcard lead: dots stay or go up from a directory, other names must
be there. -/
def step? (d : Disk) (base : Path) (name : String) : Option Path :=
  let next := entryPath base name
  if name = "." || name = ".." then if d.isDirectory base then some next else none
  else if d.exists? next then some next
  else none

/-- The entries of a directory that tokens fit. A pattern that starts with a dot may also fit the
directory itself and the one above it. -/
def fitting (d : Disk) (base : Path) (ts : List Token) : List Path :=
  let dots := if ts.head? = some (.char '.') && d.isDirectory base then [".", ".."] else []
  ((d.entryNames base).filter (fun n => fits ts n.toList)).map (entryPath base) ++
    (dots.filter fun n => fits ts n.toList).map (fun n => base.join ⟨n⟩)

/-- What the names of a pattern find from a path on. The tokens of each name are tried against the
entries of the directories found so far; names for any depth are tried against all that is below
them. -/
def expand (d : Disk) : Nat → List (List Token) → Path → List Path
  | _, [], base => [base]
  | 0, _ :: _, _ => []
  | bound + 1, ts :: rest, base =>
      if isDeep ts then
        match dropDeep rest with
        | [] => (descendants d base).filter d.isDirectory
        | us :: rest =>
            ((descendants d base).filter fun p =>
              p.fileName?.any fun n => fits us n.toList).flatMap (expand d bound rest)
      else
        match literal? ts with
        | some name => (step? d base name).toList.flatMap (expand d bound rest)
        | none => (fitting d base ts).flatMap (expand d bound rest)

/-- The names of a pattern; a slash at the end starts no further name. -/
def names (pattern : String) : List String :=
  let pieces := Text.splitString '/' pattern
  let pieces := if pattern.toList.head? = some '/' then pieces.drop 1 else pieces
  match pieces.reverse with
  | "" :: rest => rest.reverse
  | _ => pieces

/-- The paths that a pattern finds; `none` if it is not a pattern. -/
def find? (d : Disk) (pattern : String) : Option (List Path) := do
  let _ ← parse? pattern
  let patterns ← (names pattern).mapM parse?
  let base : Path := if pattern.toList.head? = some '/' then ⟨"/"⟩ else ⟨"."⟩
  return expand d patterns.length patterns base

end ArtifactFlow.Glob
