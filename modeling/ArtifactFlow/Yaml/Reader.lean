import ArtifactFlow.Yaml.Node
import ArtifactFlow.Yaml.Schema

/-!
YAML text to values. Aliases are replaced by the nodes they name, keys become strings, and of a key
that stands twice the last value counts. A tag of the document's own, more than one document, and
nesting or repetition without bound are refused.
-/

namespace ArtifactFlow.Yaml

def maxNesting : Nat := 128

/-- For each node of a document the anchors may be followed this many times in all. -/
def maxRepetition : Nat := 100

/-- A node whose aliases are numbers. -/
inductive Linked where
  | alias (id : Nat)
  | scalar (tag : Option (List Char)) (text : List Char) (plain : Bool)
  | list (tag : Option (List Char)) (items : List Linked)
  | mapping (tag : Option (List Char)) (entries : List (Linked × Linked))
  deriving Inhabited

/-- What has been anchored so far: the number of each name, how many nodes have been anchored, and
the anchored nodes with their numbers and their rank in the document. -/
structure Anchors where
  names : List (List Char × Nat)
  started : Nat
  nodes : List (Nat × Nat × Linked)

namespace Anchors

def empty : Anchors := ⟨[], 0, []⟩

/-- Gives a name the next number. A name that is used again takes over; it is counted once. -/
def declare (a : Anchors) (name : List Char) : Anchors × Nat × Nat :=
  let id := a.names.length
  let names := a.names.filter fun (n, _) => n ≠ name
  ({ a with names := (name, id) :: names, started := a.started + 1 }, id, a.started)

def record (a : Anchors) (id rank : Nat) (node : Linked) : Anchors :=
  { a with nodes := (id, rank, node) :: a.nodes }

def number? (a : Anchors) (name : List Char) : Option Nat :=
  (a.names.find? fun (n, _) => n = name).map (·.2)

/-- The node of a number: the one that starts last, where several have it. -/
def node? (a : Anchors) (id : Nat) : Option Linked :=
  let candidates := a.nodes.filter fun (i, _, _) => i = id
  (candidates.foldl (fun best (_, rank, node) =>
    match best with
    | some (r, n) => if r < rank then some (rank, node) else some (r, n)
    | none => some (rank, node)) none).map (·.2)

end Anchors

def Anchors.enter (a : Anchors) (p : Properties) : Anchors × Option (Nat × Nat) :=
  match p.anchor with
  | none => (a, none)
  | some name =>
      let (a, id, rank) := a.declare name
      (a, some (id, rank))

def Anchors.leave (a : Anchors) (place : Option (Nat × Nat)) (node : Linked) : Linked × Anchors :=
  match place with
  | none => (node, a)
  | some (id, rank) => (node, a.record id rank node)

mutual

/-- Replaces the names of aliases by numbers, in document order; `none` when a name is unknown. -/
def link? (a : Anchors) : Node → Option (Linked × Anchors)
  | .alias name => (a.number? name).map fun id => (.alias id, a)
  | .scalar p text plain =>
      let (a, place) := a.enter p
      some (a.leave place (.scalar p.tag text plain))
  | .list p items =>
      let (a, place) := a.enter p
      match linkItems? a items with
      | some (items, a) => some (a.leave place (.list p.tag items))
      | none => none
  | .mapping p entries =>
      let (a, place) := a.enter p
      match linkEntries? a entries with
      | some (entries, a) => some (a.leave place (.mapping p.tag entries))
      | none => none
  termination_by structural n => n

def linkItems? (a : Anchors) : List Node → Option (List Linked × Anchors)
  | [] => some ([], a)
  | n :: rest =>
      match link? a n with
      | none => none
      | some (n, a) =>
          match linkItems? a rest with
          | none => none
          | some (rest, a) => some (n :: rest, a)
  termination_by structural items => items

def linkEntries? (a : Anchors) : List (Node × Node) → Option (List (Linked × Linked) × Anchors)
  | [] => some ([], a)
  | (k, v) :: rest =>
      match link? a k with
      | none => none
      | some (k, a) =>
          match link? a v with
          | none => none
          | some (v, a) =>
              match linkEntries? a rest with
              | none => none
              | some (rest, a) => some ((k, v) :: rest, a)
  termination_by structural entries => entries

end

mutual

/-- Number of parts of a node: one for a scalar or an alias, two for the ends of a collection. -/
def parts : Linked → Nat
  | .alias _ | .scalar .. => 1
  | .list _ items => 2 + partsOfItems items
  | .mapping _ entries => 2 + partsOfEntries entries
  termination_by structural n => n

def partsOfItems : List Linked → Nat
  | [] => 0
  | n :: rest => parts n + partsOfItems rest
  termination_by structural items => items

def partsOfEntries : List (Linked × Linked) → Nat
  | [] => 0
  | (k, v) :: rest => parts k + parts v + partsOfEntries rest
  termination_by structural entries => entries

end

/-- A tag of the document's own. It would name a kind of value that is not known here. -/
def isLocalTag : Option (List Char) → Bool
  | some ('!' :: _) => true
  | _ => false

/-- Follows an alias; `left` is how many more may be followed. -/
def follow? (a : Anchors) (left : Nat) : Linked → Option (Linked × Nat)
  | .alias id =>
      match left with
      | 0 => none
      | left + 1 => (a.node? id).map (·, left)
  | node => some (node, left)

/-- The text of a key: keys are scalars, and their tags do not count. -/
def key? (a : Anchors) (left : Nat) (node : Linked) : Option (String × Nat) :=
  match follow? a left node with
  | some (.scalar _ text _, left) => some (String.ofList text, left)
  | _ => none

/-- Runs over items one after another, passing on how many aliases may still be followed. -/
def items? (value : Nat → Linked → Option (Value × Nat)) :
    Nat → List Linked → Option (List Value × Nat)
  | left, [] => some ([], left)
  | left, n :: rest => do
      let (v, left) ← value left n
      let (vs, left) ← items? value left rest
      return (v :: vs, left)

/-- How the parts of a document are understood. -/
structure Interpretation where
  /-- The value of a scalar, given its tag, its text and whether it is plain. -/
  scalar : Option (List Char) → List Char → Bool → Option Value
  /-- Adds an entry to those in front of it. -/
  enter : String → Value → Mapping → Mapping

/-- Scalars stand for values of all kinds, and of a key that stands twice the last value counts. -/
def Interpretation.typed : Interpretation where
  scalar tag text plain :=
    if isLocalTag tag then none
    else
      match tag with
      | some tag => taggedValue? tag text
      | none => if plain then plainValue? text else some (.string (String.ofList text))
  enter := Fields.insert

/-- Scalars stand for their text, whatever it looks like, and every entry is kept. -/
def Interpretation.textual : Interpretation where
  scalar _ text _ := some (.string (String.ofList text))
  enter key value done := done ++ [(key, value)]

def entries? (a : Anchors) (i : Interpretation) (value : Nat → Linked → Option (Value × Nat))
    (done : Mapping) : Nat → List (Linked × Linked) → Option (Mapping × Nat)
  | left, [] => some (done, left)
  | left, (k, v) :: rest => do
      let (key, left) ← key? a left k
      let (v, left) ← value left v
      entries? a i value (i.enter key v done) left rest

/-- The value of a node in which collections may be nested `depth` deep, and how many aliases may
still be followed after it. -/
def value? (a : Anchors) (i : Interpretation) :
    (depth : Nat) → (left : Nat) → Linked → Option (Value × Nat)
  | depth, left, node =>
      match follow? a left node with
      | some (.scalar tag text plain, left) => (i.scalar tag text plain).map (·, left)
      | some (.list tag items, left) =>
          match depth with
          | 0 => none
          | depth + 1 =>
              if isLocalTag tag then none
              else (items? (value? a i depth) left items).map fun (vs, left) => (.list vs, left)
      | some (.mapping tag entries, left) =>
          match depth with
          | 0 => none
          | depth + 1 =>
              if isLocalTag tag then none
              else (entries? a i (value? a i depth) [] left entries).map fun (fields, left) =>
                (.mapping fields, left)
      | _ => none
  termination_by structural depth => depth

/-- The value of a whole text. A text without a document is null. -/
def parseWith? (i : Interpretation) (s : List Char) : Option Value := do
  match ← Node.ofTokens? (← tokens? s) with
  | none => return .null
  | some root =>
      let (root, anchors) ← link? .empty root
      let (v, _) ← value? anchors i maxNesting (maxRepetition * parts root) root
      return v

def parse? (s : List Char) : Option Value :=
  parseWith? .typed s

def parseString? (s : String) : Option Value :=
  parse? s.toList

/-- The value of a whole string in which every scalar stands for its text. A key that stands twice
has both of its entries. -/
def parseTexts? (s : String) : Option Value :=
  parseWith? .textual s.toList

end ArtifactFlow.Yaml
