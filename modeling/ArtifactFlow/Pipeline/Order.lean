import ArtifactFlow.Pipeline.Graph

/-!
The order in which crafts run: every craft after those that make something for it, and of several
that could run next the one that stands first. A graph with a cycle has no order; the fault names
the crafts of a cycle.
-/

namespace ArtifactFlow.Graph

/-- The part of a trail from a position on. A trail is kept latest first. -/
def closeCycle (trail : List Nat) (position : Nat) : List Nat :=
  (trail.takeWhile (· ≠ position) ++ [position]).reverse ++ [position]

/-- Walks all paths from a position, depth first. `trail` holds the positions that lead here and
`finished` those from which no cycle can be reached. A cycle is given with its first position
again at the end. The walk goes no deeper than `depth`. -/
def walkFrom (g : Graph) : Nat → List Nat → List Nat → Nat → Except (List Nat) (List Nat)
  | 0, _, finished, _ => .ok finished
  | depth + 1, trail, finished, position => do
      let finished ← (g.consumers position).foldlM (fun finished next =>
        if (position :: trail).contains next then .error (closeCycle (position :: trail) next)
        else if finished.contains next then .ok finished
        else g.walkFrom depth (position :: trail) finished next) finished
      return position :: finished

/-- Walks from every position that was not reached before. A trail never holds a position twice,
so the number of crafts bounds its length. -/
def findCycle (g : Graph) : Except (List Nat) (List Nat) :=
  (List.range g.size).foldlM (fun finished position =>
    if finished.contains position then .ok finished
    else g.walkFrom g.size [] finished position) []

def checkAcyclic (g : Graph) : Except Fault Unit :=
  match g.findCycle with
  | .ok _ => .ok ()
  | .error cycle => .error (.cyclicDependency (cycle.map g.nameAt))

/-- What is left to do when some crafts have run: for every position the number of edges that lead to
it from crafts that have not, and the positions that can run next, ascending. -/
structure Agenda where
  waits : List Nat
  ready : List Nat

namespace Agenda

/-- The positions whose numbers fit. -/
def positions (fits : Nat → Bool) (waits : List Nat) : List Nat :=
  (List.range waits.length).filter fun i => waits[i]?.any fits

/-- Nothing has run. -/
def start (g : Graph) : Agenda :=
  let waits := (List.range g.size).map fun i => (g.suppliers i).length
  ⟨waits, positions (· = 0) waits⟩

/-- Puts a position among ascending ones. -/
def insertPosition (position : Nat) (ready : List Nat) : List Nat :=
  ready.takeWhile (· < position) ++ position :: ready.dropWhile (· ≤ position)

/-- Counts off one edge to a position, which can run when none is left. -/
def countOff (a : Agenda) (position : Nat) : Agenda :=
  match a.waits[position]? with
  | some (n + 1) =>
      ⟨a.waits.set position n, if n = 0 then insertPosition position a.ready else a.ready⟩
  | _ => a

/-- Runs the first ready craft and counts off the edges from it, as long as one is ready and for as
many turns at most. The positions that have run, and what is left. -/
def workOff (g : Graph) : Nat → Agenda → List Nat × Agenda
  | 0, a => ([], a)
  | turns + 1, a =>
      match a.ready with
      | [] => ([], a)
      | next :: ready =>
          let (done, left) := workOff g turns ((g.consumers next).foldl countOff { a with ready })
          (next :: done, left)

end Agenda

/-- The positions of the crafts in the order in which they run. Each runs once, so that the number of
crafts bounds the turns. -/
def order (g : Graph) : Except Fault (List Nat) := do
  g.checkAcyclic
  let (done, left) := Agenda.workOff g g.size (.start g)
  if done.length = g.size then return done
  else throw (.cyclicDependency ((Agenda.positions (0 < ·) left.waits).map g.nameAt))

end ArtifactFlow.Graph
