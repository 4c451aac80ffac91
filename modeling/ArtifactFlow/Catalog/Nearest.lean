/-!
The name that a misspelt one was probably meant to be: the one at the least edit distance, if that
is small beside the length of the misspelt name.
-/

namespace ArtifactFlow

def least (a b c : Nat) : Nat :=
  min a (min b c)

/-- The next row of distances. `corner` and `above` come from the row before, `left` is the
distance that was written last. -/
def distanceRow (c : Char) (left : Nat) : List Char → Nat → List Nat → List Nat
  | d :: ds, corner, above :: row =>
      let here := least (above + 1) (left + 1) (if c = d then corner else corner + 1)
      here :: distanceRow c here ds above row
  | _, _, _ => []

/-- The distances of the rest of `source`, with `count` characters before it, to every front part
of `target`. `row` holds the distances of those `count` characters. -/
def distances (target : List Char) (count : Nat) (row : List Nat) : List Char → List Nat
  | [] => row
  | c :: cs =>
      let next := (count + 1) :: distanceRow c (count + 1) target count row.tail
      distances target (count + 1) next cs

/-- The least number of insertions, deletions and replacements of characters that turn one text
into the other. -/
def editDistance (source target : List Char) : Nat :=
  ((distances target 0 (List.range (target.length + 1)) source).getLast?).getD 0

/-- The greatest distance at which a name is suggested: half the bytes of the name asked for, and
one at least. -/
def suggestionLimit (asked : String) : Nat :=
  max 1 (asked.utf8ByteSize * 50 / 100)

/-- The nearer of two candidates; the first one if they are equally near. -/
def nearer (best : Option (Nat × String)) (candidate : Nat × String) : Option (Nat × String) :=
  match best with
  | some (d, name) => if candidate.1 < d then some candidate else some (d, name)
  | none => some candidate

/-- The first of the nearest names within the limit. -/
def nearestName? (asked : String) (names : List String) : Option String :=
  let candidates := (names.map fun name => (editDistance asked.toList name.toList, name)).filter
    fun (distance, _) => distance ≤ suggestionLimit asked
  (candidates.foldl nearer none).map (·.2)

end ArtifactFlow
