import ArtifactFlow.Proofs.Graph.Turns

/-!
The agenda follows the turns. After any number of them it holds, for every position, how many of its
suppliers have not run, and it lists the positions that are ready; so working it off comes to the
same order as looking for a ready craft anew at every turn, and to the same crafts that are left.
-/

namespace ArtifactFlow.Graph

/-- How many edges lead to a position from crafts that have not run. -/
def lacking (g : Graph) (done : List Nat) (position : Nat) : Nat :=
  (g.suppliers position).countP (· ∉ done)

section Lacking

variable {g : Graph} {done : List Nat} {next : Nat}

theorem isReady_eq (g : Graph) (done : List Nat) (position : Nat) :
    g.isReady done position = decide (position ∉ done ∧ g.lacking done position = 0) := by
  rw [Bool.eq_iff_iff, isReady_iff, decide_eq_true_eq, lacking, List.countP_eq_zero]
  simp [mem_suppliers, Leads]

/-- Edges from one position to another are found from both ends. -/
theorem count_consumers (g : Graph) (i j : Nat) :
    (g.consumers i).count j = (g.suppliers j).count i := by
  rw [consumers, suppliers, List.count_reverse, List.count_eq_countP, List.count_eq_countP,
    List.countP_map, List.countP_map, List.countP_filter, List.countP_filter]
  refine List.countP_congr fun e _ => ?_
  simp [and_comm]

/-- When a craft has run, no position lacks the edges from it any more. Every one of them was lacking
before, so that there is always one to count off. -/
theorem lacking_snoc (hnext : next ∉ done) (position : Nat) :
    g.lacking done position =
      g.lacking (done ++ [next]) position + (g.consumers next).count position := by
  have hsplit (l : List Nat) :
      l.countP (· ∉ done) = l.countP (· ∉ done ++ [next]) + l.count next := by
    induction l with
    | nil => rfl
    | cons i l ih =>
        rw [List.countP_cons, List.countP_cons, List.count_cons, ih]
        by_cases hi : i = next
        · subst hi
          simp [hnext]
          omega
        · simp [hi]
          omega
  rw [count_consumers, lacking, lacking, hsplit]

end Lacking

namespace Agenda

variable {g : Graph} {a : Agenda} {n position : Nat} {done : List Nat} {count other : Nat → Nat}

theorem getElem?_map_range (count : Nat → Nat) (n i : Nat) :
    ((List.range n).map count)[i]? = if i < n then some (count i) else none := by
  by_cases hi : i < n
  · rw [List.getElem?_map, List.getElem?_range hi, if_pos hi]
    rfl
  · rw [if_neg hi, List.getElem?_eq_none (by simpa using hi)]

theorem positions_map_range (fits : Nat → Bool) (n : Nat) (count : Nat → Nat) :
    positions fits ((List.range n).map count) = (List.range n).filter fun i => fits (count i) := by
  rw [positions, List.length_map, List.length_range]
  refine List.filter_congr fun i hi => ?_
  rw [getElem?_map_range, if_pos (List.mem_range.1 hi)]
  rfl

theorem insertPosition_append {front back : List Nat} (hfront : ∀ i ∈ front, i < position)
    (hback : ∀ i ∈ back, position < i) :
    insertPosition position (front ++ back) = front ++ position :: back := by
  have hnone : back.takeWhile (· < position) = [] := by
    cases back with
    | nil => rfl
    | cons i back => simp [Nat.not_lt_of_lt (hback i List.mem_cons_self)]
  have hall : back.dropWhile (· ≤ position) = back := by
    cases back with
    | nil => rfl
    | cons i back => simp [Nat.not_le_of_lt (hback i List.mem_cons_self)]
  rw [insertPosition, List.takeWhile_append_of_pos (by simpa using hfront), hnone,
    List.dropWhile_append_of_pos (by simpa using fun i hi => (hfront i hi).le), hall,
    List.append_nil]

theorem insertPosition_filter {fits : Nat → Bool} (hposition : position < n)
    (hnew : fits position = false) :
    insertPosition position ((List.range n).filter fits) =
      (List.range n).filter fun i => fits i || i = position := by
  have hsame {l : List Nat} (hl : position ∉ l) :
      (l.filter fun i => fits i || i = position) = l.filter fits := by
    refine List.filter_congr fun i hi => ?_
    have hne : i ≠ position := fun heq => hl (heq ▸ hi)
    simp [hne]
  obtain ⟨k, rfl⟩ : ∃ k, n = position + (1 + k) := ⟨n - position - 1, by omega⟩
  have hrange : List.range (position + (1 + k)) =
      List.range position ++ position :: (List.range k).map (position + 1 + ·) := by
    rw [← Nat.add_assoc, List.range_add, List.range_succ, List.append_assoc, List.singleton_append]
  have hfront : ∀ i ∈ List.range position, i < position := fun i hi => List.mem_range.1 hi
  have hback : ∀ i ∈ (List.range k).map (position + 1 + ·), position < i := by
    intro i hi
    obtain ⟨j, -, rfl⟩ := List.mem_map.1 hi
    omega
  rw [hrange, List.filter_append, List.filter_append, List.filter_cons_of_neg (by simp [hnew]),
    List.filter_cons_of_pos (by simp), hsame fun hmem => Nat.lt_irrefl _ (hfront _ hmem),
    hsame fun hmem => Nat.lt_irrefl _ (hback _ hmem)]
  exact insertPosition_append (fun i hi => hfront i (List.mem_filter.1 hi).1)
    fun i hi => hback i (List.mem_filter.1 hi).1

/-- Of the positions below a bound, so many edges lead to each, and those are ready that are not done
and to which none leads. -/
structure Counts (a : Agenda) (n : Nat) (done : List Nat) (count : Nat → Nat) : Prop where
  waits : a.waits = (List.range n).map count
  ready : a.ready = (List.range n).filter fun i => i ∉ done ∧ count i = 0

theorem Counts.congr (h : a.Counts n done count) (same : ∀ i < n, other i = count i) :
    a.Counts n done other := by
  constructor
  · rw [h.waits]
    exact List.map_congr_left fun i hi => (same i (List.mem_range.1 hi)).symm
  · rw [h.ready]
    exact List.filter_congr fun i hi => by rw [same i (List.mem_range.1 hi)]

/-- One edge less leads to the position. To a position that has run none leads any more, and one out
of bounds is of no account. -/
theorem Counts.countOff (h : a.Counts n done count) (supplied : ∀ i ∈ done, count i = 0)
    (position : Nat) :
    (a.countOff position).Counts n done
      (Function.update count position (count position - 1)) := by
  by_cases hposition : position < n
  · have hget : a.waits[position]? = some (count position) := by
      rw [h.waits, getElem?_map_range, if_pos hposition]
    cases hcount : count position with
    | zero =>
        have hsame : Function.update count position (0 - 1) = count := by
          rw [Nat.zero_sub, ← hcount, Function.update_eq_self]
        simp only [Agenda.countOff, hget, hcount]
        rwa [hsame]
    | succ k =>
        have hnew : position ∉ done := fun hmem => by simp [supplied position hmem] at hcount
        simp only [Agenda.countOff, hget, hcount, Nat.add_sub_cancel]
        constructor
        · dsimp only
          rw [h.waits]
          refine List.ext_getElem (by simp) fun i _ _ => ?_
          rw [List.getElem_set]
          simp [Function.update_apply, eq_comm]
        · dsimp only
          rw [h.ready]
          by_cases hk : k = 0
          · rw [if_pos hk, insertPosition_filter hposition (by simp [hcount])]
            refine List.filter_congr fun i _ => ?_
            by_cases hi : i = position <;> simp [hi, hk, hnew]
          · rw [if_neg hk]
            refine List.filter_congr fun i _ => ?_
            by_cases hi : i = position <;> simp [hi, hk, hcount]
  · have hget : a.waits[position]? = none := by
      rw [h.waits, getElem?_map_range, if_neg hposition]
    simp only [Agenda.countOff, hget]
    exact h.congr fun i hi => Function.update_of_ne (by omega) _ _

theorem Counts.foldl_countOff (h : a.Counts n done count) (supplied : ∀ i ∈ done, count i = 0)
    (consumers : List Nat) :
    (consumers.foldl Agenda.countOff a).Counts n done fun i => count i - consumers.count i := by
  induction consumers generalizing a count with
  | nil => exact h
  | cons position rest ih =>
      refine (ih (h.countOff supplied position) fun i hi => ?_).congr fun i _ => ?_
      · have hzero := supplied i hi
        by_cases hne : i = position
        · subst hne
          rw [Function.update_self, hzero]
        · rw [Function.update_of_ne hne, hzero]
      · rw [List.count_cons]
        by_cases hi : i = position
        · subst hi
          rw [Function.update_self, beq_self_eq_true, if_pos rfl]
          omega
        · rw [Function.update_of_ne hi, if_neg (by simpa using Ne.symm hi), Nat.add_zero]

/-- The agenda when some crafts have run, each after its suppliers. -/
structure Follows (a : Agenda) (g : Graph) (done : List Nat) : Prop where
  counts : a.Counts g.size done (g.lacking done)
  supplied : ∀ i ∈ done, g.lacking done i = 0

theorem Follows.ready (h : a.Follows g done) :
    a.ready = (List.range g.size).filter (g.isReady done) := by
  rw [h.counts.ready]
  exact List.filter_congr fun i _ => (isReady_eq g done i).symm

theorem follows_start (g : Graph) : (start g).Follows g [] := by
  have hlacking : g.lacking [] = fun i => (g.suppliers i).length := by
    funext i
    simp [lacking]
  refine ⟨⟨?_, ?_⟩, nofun⟩
  · rw [hlacking]
    rfl
  · rw [hlacking, start, positions_map_range]
    simp

/-- Running the first ready craft and counting off the edges from it is one turn. -/
theorem Follows.next {next : Nat} {ready : List Nat} (h : a.Follows g done)
    (hready : a.ready = next :: ready) :
    ((g.consumers next).foldl Agenda.countOff { a with ready }).Follows g (done ++ [next]) := by
  have hall := h.counts.ready
  rw [hready] at hall
  have hmem : next ∈ next :: ready := List.mem_cons_self
  rw [hall, List.mem_filter] at hmem
  obtain ⟨hnew, hzero⟩ := of_decide_eq_true hmem.2
  have supplied : ∀ i ∈ done ++ [next], g.lacking done i = 0 :=
    List.forall_mem_append.2 ⟨h.supplied, List.forall_mem_singleton.2 hzero⟩
  have counts : Agenda.Counts { a with ready } g.size (done ++ [next]) (g.lacking done) := by
    refine ⟨h.counts.waits, ?_⟩
    have hnodup : (next :: ready).Nodup := hall ▸ List.nodup_range.filter _
    obtain ⟨hnext, -⟩ := List.nodup_cons.1 hnodup
    calc ready = (next :: ready).filter (· ≠ next) := by
          rw [List.filter_cons_of_neg (by simp), List.filter_eq_self.2]
          exact fun i hi => decide_eq_true fun heq => hnext (heq ▸ hi)
      _ = _ := by
          rw [hall, List.filter_filter]
          refine List.filter_congr fun i _ => ?_
          by_cases hi : i = next <;> simp [hi]
  have hlacking := lacking_snoc (g := g) hnew
  refine ⟨(counts.foldl_countOff supplied _).congr fun i _ => ?_, fun i hi => ?_⟩
  · rw [hlacking, Nat.add_sub_cancel]
  · have hzero := supplied i hi
    rw [hlacking] at hzero
    exact (Nat.add_eq_zero_iff.1 hzero).1

theorem Follows.workOff (h : a.Follows g done) (turns : Nat) :
    done ++ (workOff g turns a).1 = g.extend turns done ∧
      (workOff g turns a).2.Follows g (g.extend turns done) := by
  induction turns generalizing a done with
  | zero => exact ⟨List.append_nil done, h⟩
  | succ turns ih =>
      have hnext : g.nextReady? done = a.ready.head? := by
        rw [h.ready, List.head?_filter, nextReady?]
      rw [extend, hnext, Agenda.workOff]
      cases hready : a.ready with
      | nil => exact ⟨List.append_nil done, h⟩
      | cons next ready =>
          obtain ⟨hdone, hleft⟩ := ih (h.next hready)
          dsimp only [List.head?_cons]
          rw [← hdone] at hleft ⊢
          rw [List.append_assoc] at hleft ⊢
          exact ⟨rfl, hleft⟩

end Agenda

/-- Working off the agenda is choosing anew at every turn. -/
theorem order_eq (g : Graph) : g.order = (do
    g.checkAcyclic
    let done := g.extend g.size []
    if done.length = g.size then return done
    else throw (.cyclicDependency
      (((List.range g.size).filter fun i => !done.contains i).map g.nameAt))) := by
  obtain ⟨hdone, left⟩ := (Agenda.follows_start g).workOff g.size
  rw [List.nil_append] at hdone
  rw [order]
  congr 1
  funext _
  dsimp only
  rw [hdone]
  by_cases hlength : (g.extend g.size []).length = g.size
  · rw [if_pos hlength, if_pos hlength]
  · rw [if_neg hlength, if_neg hlength, left.counts.waits, Agenda.positions_map_range]
    -- Whatever has not run lacks something, or it would have had its turn.
    have hwaiting : ∀ i ∈ List.range g.size,
        decide (0 < g.lacking (g.extend g.size []) i) = !(g.extend g.size []).contains i := by
      intro i hi
      by_cases hmem : i ∈ g.extend g.size []
      · simp [hmem, left.supplied i hmem]
      · have hready := g.not_isReady_extend (List.mem_range.1 hi)
        rw [isReady_eq, decide_eq_true_eq, not_and] at hready
        simpa [hmem] using Nat.pos_of_ne_zero (hready hmem)
    rw [List.filter_congr hwaiting]

/-- There are turns enough: nothing is ready in the end. -/
theorem ready_workOff (g : Graph) : (Agenda.workOff g g.size (.start g)).2.ready = [] := by
  obtain ⟨-, left⟩ := (Agenda.follows_start g).workOff g.size
  rw [left.ready, List.filter_eq_nil_iff]
  exact fun i hi => g.not_isReady_extend (List.mem_range.1 hi)

end ArtifactFlow.Graph
