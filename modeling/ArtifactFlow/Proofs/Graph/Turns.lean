import ArtifactFlow.Proofs.Graph.Walk

/-!
The choice of an order, made anew at every turn: the first craft runs that has not yet and whose
suppliers all have. Any number of turns gives positions that can run one after another, only the
lack of a ready craft ends them early, and as many turns as there are crafts are enough.
-/

namespace ArtifactFlow.Graph

/-- Whether the craft at a position has not run and all that make something for it have. -/
def isReady (g : Graph) (done : List Nat) (position : Nat) : Bool :=
  !done.contains position && (g.suppliers position).all done.contains

def nextReady? (g : Graph) (done : List Nat) : Option Nat :=
  (List.range g.size).find? (g.isReady done)

/-- Runs crafts as long as one is ready, for as many turns at most. -/
def extend (g : Graph) : Nat → List Nat → List Nat
  | 0, done => done
  | turns + 1, done =>
      match g.nextReady? done with
      | some position => g.extend turns (done ++ [position])
      | none => done

/-- Positions that can run one after another once others are done. -/
def Runs (g : Graph) : List Nat → List Nat → Prop
  | _, [] => True
  | done, i :: rest => i < g.size ∧ g.isReady done i ∧ Runs g (done ++ [i]) rest

theorem isReady_iff {g : Graph} {done : List Nat} {i : Nat} :
    g.isReady done i ↔ i ∉ done ∧ ∀ j, g.Leads j i → j ∈ done := by
  simp [isReady, mem_suppliers, Leads]

theorem nextReady?_eq_some {g : Graph} {done : List Nat} {i : Nat} :
    g.nextReady? done = some i ↔
      (i < g.size ∧ g.isReady done i) ∧ ∀ j < i, ¬ g.isReady done j := by
  rw [nextReady?, List.find?_range_eq_some, List.mem_range]
  simp only [Bool.not_eq_true', Bool.not_eq_true]
  tauto

theorem Runs.append {g : Graph} {done first second : List Nat} :
    g.Runs done (first ++ second) ↔ g.Runs done first ∧ g.Runs (done ++ first) second := by
  induction first generalizing done with
  | nil => simp [Runs]
  | cons i first ih => simp [Runs, ih, and_assoc]

theorem Runs.nodup {g : Graph} {done rest : List Nat} (h : g.Runs done rest)
    (hdone : done.Nodup) : (done ++ rest).Nodup := by
  induction rest generalizing done with
  | nil => simpa using hdone
  | cons i rest ih =>
      have hnew := (isReady_iff.1 h.2.1).1
      have hsnoc : (done ++ [i]).Nodup := by
        rw [← List.concat_eq_append]
        exact hdone.concat hnew
      simpa using ih h.2.2 hsnoc

theorem Runs.lt_size {g : Graph} {done rest : List Nat} (h : g.Runs done rest) {i : Nat}
    (hi : i ∈ rest) : i < g.size := by
  obtain ⟨first, second, rfl⟩ := List.append_of_mem hi
  exact (Runs.append.1 h).2.1

theorem Runs.length_le {g : Graph} {rest : List Nat} (h : g.Runs [] rest) :
    rest.length ≤ g.size := by
  have hnodup : rest.Nodup := by simpa using h.nodup List.nodup_nil
  have hsub : rest ⊆ List.range g.size := fun i hi => List.mem_range.2 (h.lt_size hi)
  simpa using (hnodup.subperm hsub).length_le

/-- Crafts are run up to the number of turns, or until none is ready. -/
theorem exists_extend_eq {g : Graph} (turns : Nat) (done : List Nat) :
    ∃ rest, g.extend turns done = done ++ rest ∧ g.Runs done rest ∧
      (rest.length = turns ∨ ∀ i < g.size, ¬ g.isReady (done ++ rest) i) := by
  induction turns generalizing done with
  | zero => exact ⟨[], by simp [extend], trivial, .inl rfl⟩
  | succ turns ih =>
      rw [extend]
      cases hnext : g.nextReady? done with
      | none =>
          refine ⟨[], by simp, trivial, .inr ?_⟩
          simpa [nextReady?] using hnext
      | some i =>
          obtain ⟨⟨hsize, hready⟩, -⟩ := nextReady?_eq_some.1 hnext
          obtain ⟨rest, heq, hruns, hend⟩ := ih (done ++ [i])
          refine ⟨i :: rest, by simpa using heq, ⟨hsize, hready, hruns⟩, ?_⟩
          simpa using hend

/-- As many turns as there are crafts leave nothing ready. -/
theorem not_isReady_extend (g : Graph) {i : Nat} (hi : i < g.size) :
    ¬ g.isReady (g.extend g.size []) i := by
  obtain ⟨rest, heq, hruns, hend⟩ := exists_extend_eq (g := g) g.size []
  rw [heq]
  rcases hend with hlength | hstuck
  · intro hready
    have hmore : g.Runs [] (rest ++ [i]) := Runs.append.2 ⟨hruns, hi, hready, trivial⟩
    have hle := hmore.length_le
    rw [List.length_append, hlength, List.length_singleton] at hle
    omega
  · exact hstuck i hi

end ArtifactFlow.Graph
