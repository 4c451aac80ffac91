import ArtifactFlow.Pipeline.Graph
import Mathlib.Data.List.Induction
import Mathlib.Data.List.Nodup

/-!
How the edges of a graph are collected. For given producers there is one edge at most from one
position to another, under the first name that the craft at the second one needs from there.
-/

namespace ArtifactFlow

/-- The positions that an edge leads from and to. -/
def Edge.ends (e : Edge) : Nat × Nat :=
  (e.producer, e.consumer)

namespace Graph

variable {producers : Producers} {consumer : Nat} {edges : List Edge} {names : List String}
  {name : String} {e : Edge}

theorem hasEdge_append (edges more : List Edge) (i j : Nat) :
    hasEdge (edges ++ more) i j = (hasEdge edges i j || hasEdge more i j) := by
  simp [hasEdge]

theorem hasEdge_iff_ends {i j : Nat} : hasEdge edges i j ↔ (i, j) ∈ edges.map Edge.ends := by
  simp [hasEdge, Edge.ends]

/-- What is needed adds an edge, or there is one already that it would repeat, or nothing to lead
an edge from. -/
theorem addEdge_cases (producers : Producers) (consumer : Nat) (edges : List Edge)
    (name : String) :
    (addEdge producers consumer edges name = edges ∧
      ∀ i, Fields.get? name producers = some i → i = consumer ∨ hasEdge edges i consumer) ∨
    ∃ i, Fields.get? name producers = some i ∧ i ≠ consumer ∧ ¬ hasEdge edges i consumer ∧
      addEdge producers consumer edges name = edges ++ [⟨i, consumer, name⟩] := by
  rw [addEdge]
  cases Fields.get? name producers with
  | none => exact .inl ⟨rfl, nofun⟩
  | some i =>
      by_cases hstop : i = consumer ∨ hasEdge edges i consumer
      · refine .inl ⟨by simp [hstop], ?_⟩
        intro _ heq
        exact Option.some.inj heq ▸ hstop
      · obtain ⟨hself, hedge⟩ := not_or.1 hstop
        exact .inr ⟨i, rfl, hself, hedge, by simp [hself, hedge]⟩

/-- The edges to one craft, for names that it needs. -/
def edgesTo (producers : Producers) (consumer : Nat) (names : List String) : List Edge :=
  names.foldl (addEdge producers consumer) []

theorem edgesTo_snoc (producers : Producers) (consumer : Nat) (names : List String)
    (name : String) : edgesTo producers consumer (names ++ [name]) =
      addEdge producers consumer (edgesTo producers consumer names) name := by
  rw [edgesTo, List.foldl_append, List.foldl_cons, List.foldl_nil, edgesTo]

theorem hasEdge_of_mem (h : e ∈ edges) : hasEdge edges e.producer e.consumer :=
  hasEdge_iff_ends.2 (List.mem_map_of_mem h)

theorem exists_mem_of_hasEdge {i j : Nat} (h : hasEdge edges i j) :
    ∃ name, ⟨i, j, name⟩ ∈ edges := by
  obtain ⟨⟨producer, consumer, name⟩, hmem, heq⟩ := List.mem_map.1 (hasEdge_iff_ends.1 h)
  cases heq
  exact ⟨name, hmem⟩

/-- There is an edge for every other craft that makes one of the names, under the first of them. -/
theorem mem_edgesTo : e ∈ edgesTo producers consumer names ↔
    e.consumer = consumer ∧ e.producer ≠ consumer ∧
      names.find? (fun name => Fields.get? name producers = some e.producer) = some e.name := by
  induction names using List.reverseRecOn generalizing e with
  | nil => simp [edgesTo]
  | append_singleton names name ih =>
      rw [edgesTo_snoc, List.find?_append]
      rcases addEdge_cases producers consumer (edgesTo producers consumer names) name with
        ⟨heq, hstop⟩ | ⟨i, hget, hself, hnone, heq⟩
      · rw [heq, ih]
        refine and_congr_right fun _ => and_congr_right fun hself => ?_
        cases hfind : names.find? (fun name => Fields.get? name producers = some e.producer) with
        | some first => simp
        | none =>
            -- Were the last name the first one from this producer, it would have added an edge.
            suffices hget : Fields.get? name producers ≠ some e.producer by simp [hget]
            intro hget
            obtain hsame | hedge := hstop _ hget
            · exact hself hsame
            · obtain ⟨first, hmem⟩ := exists_mem_of_hasEdge hedge
              have hfound := (ih.1 hmem).2.2
              simp [hfind] at hfound
      · rw [heq, List.mem_append, ih, List.mem_singleton]
        by_cases hi : e.producer = i
        · have hfind : names.find? (fun name => Fields.get? name producers = some i) = none := by
            rw [Option.eq_none_iff_forall_ne_some]
            intro first hfind
            exact hnone (hasEdge_of_mem (e := ⟨i, consumer, first⟩) (ih.2 ⟨rfl, hself, hfind⟩))
          obtain ⟨producer, j, label⟩ := e
          obtain rfl : producer = i := hi
          simp only [hfind, hget, hself, Option.none_or, List.find?_singleton, decide_true, if_true,
            ne_eq, not_false_eq_true, true_and, and_false, false_or, reduceCtorEq,
            Option.some.injEq, Edge.mk.injEq]
          exact and_congr_right fun _ => eq_comm
        · have hother : Fields.get? name producers ≠ some e.producer := by
            simpa [hget] using Ne.symm hi
          have hne : e ≠ ⟨i, consumer, name⟩ := fun h => hi (h ▸ rfl)
          simp [hother, hne]

theorem nodup_edgesTo : ((edgesTo producers consumer names).map Edge.ends).Nodup := by
  induction names using List.reverseRecOn with
  | nil => exact List.nodup_nil
  | append_singleton names name ih =>
      rw [edgesTo_snoc]
      rcases addEdge_cases producers consumer (edgesTo producers consumer names) name with
        ⟨heq, -⟩ | ⟨i, -, -, hnone, heq⟩
      · rwa [heq]
      · rw [hasEdge_iff_ends] at hnone
        rw [heq, List.map_append, List.nodup_append_comm]
        exact List.nodup_cons.2 ⟨hnone, ih⟩

/-- Edges to other crafts do not matter for those to one. -/
theorem foldl_addEdge_append (fresh : ∀ e ∈ edges, e.consumer ≠ consumer) (more : List Edge) :
    names.foldl (addEdge producers consumer) (edges ++ more) =
      edges ++ names.foldl (addEdge producers consumer) more := by
  have hnone (i : Nat) : hasEdge edges i consumer = false := by
    simpa [hasEdge] using fun e he _ => fresh e he
  induction names generalizing more with
  | nil => rfl
  | cons name names ih =>
      have hstep : addEdge producers consumer (edges ++ more) name =
          edges ++ addEdge producers consumer more name := by
        rw [addEdge, addEdge]
        cases Fields.get? name producers with
        | none => rfl
        | some i =>
            simp only [hasEdge_append, hnone, Bool.false_or]
            split
            · rfl
            · exact List.append_assoc ..
      rw [List.foldl_cons, List.foldl_cons, hstep, ih]

/-- The crafts of a list add their edges one after another. -/
theorem foldl_edgesTo {entries : List (Craft × Nat)} (distinct : (entries.map (·.2)).Nodup)
    (fresh : ∀ e ∈ edges, e.consumer ∉ entries.map (·.2)) :
    entries.foldl (fun edges (c, j) => (needs c).foldl (addEdge producers j) edges) edges =
      edges ++ entries.flatMap fun (c, j) => edgesTo producers j (needs c) := by
  induction entries generalizing edges with
  | nil => simp
  | cons entry entries ih =>
      obtain ⟨c, j⟩ := entry
      obtain ⟨hj, distinct⟩ := List.nodup_cons.1 distinct
      have hto : ∀ e ∈ edges, e.consumer ≠ j := fun e he heq =>
        fresh e he (heq ▸ List.mem_cons_self)
      have hstep : (needs c).foldl (addEdge producers j) edges =
          edges ++ edgesTo producers j (needs c) := by
        simpa [edgesTo] using foldl_addEdge_append hto []
      simp only [List.foldl_cons, List.flatMap_cons, hstep]
      rw [ih distinct, List.append_assoc]
      intro e he hmem
      rcases List.mem_append.1 he with he | he
      · exact fresh e he (List.mem_cons_of_mem j hmem)
      · exact hj ((mem_edgesTo.1 he).1 ▸ hmem)

theorem nodup_positions (crafts : List Craft) : (crafts.zipIdx.map (·.2)).Nodup := by
  rw [List.zipIdx_map_snd]
  exact List.nodup_range'

theorem edgesOf_eq (producers : Producers) (crafts : List Craft) :
    edgesOf producers crafts =
      crafts.zipIdx.flatMap fun (c, j) => edgesTo producers j (needs c) :=
  foldl_edgesTo (nodup_positions crafts) (by simp)

theorem mem_edgesOf {crafts : List Craft} : e ∈ edgesOf producers crafts ↔
    e.producer ≠ e.consumer ∧ ∃ c, crafts[e.consumer]? = some c ∧
      (needs c).find? (fun name => Fields.get? name producers = some e.producer) =
        some e.name := by
  simp only [edgesOf_eq, List.mem_flatMap, Prod.exists, List.mk_mem_zipIdx_iff_getElem?,
    mem_edgesTo]
  constructor
  · rintro ⟨c, j, hc, rfl, hself, hfind⟩
    exact ⟨hself, c, hc, hfind⟩
  · rintro ⟨hself, c, hc, hfind⟩
    exact ⟨c, e.consumer, hc, rfl, hself, hfind⟩

theorem nodup_edgesOf (producers : Producers) (crafts : List Craft) :
    ((edgesOf producers crafts).map Edge.ends).Nodup := by
  rw [edgesOf_eq, List.map_flatMap, List.nodup_flatMap]
  refine ⟨fun _ _ => nodup_edgesTo, ?_⟩
  refine (List.pairwise_map.1 (nodup_positions crafts)).imp ?_
  intro first second hne pair hfirst hsecond
  obtain ⟨e, he, rfl⟩ := List.mem_map.1 hfirst
  obtain ⟨f, hf, hends⟩ := List.mem_map.1 hsecond
  have hconsumer : f.consumer = e.consumer := congrArg Prod.snd hends
  exact hne (((mem_edgesTo.1 he).1.symm.trans hconsumer.symm).trans (mem_edgesTo.1 hf).1)

/-- There is an edge from one position to another if the craft at the second one needs something
from the first one. -/
theorem hasEdge_edgesOf {crafts : List Craft} {i j : Nat} :
    hasEdge (edgesOf producers crafts) i j ↔
      i ≠ j ∧ ∃ c, crafts[j]? = some c ∧ ∃ name ∈ needs c, Fields.get? name producers = some i := by
  constructor
  · intro h
    obtain ⟨name, hmem⟩ := exists_mem_of_hasEdge h
    obtain ⟨hself, c, hc, hfind⟩ := mem_edgesOf.1 hmem
    refine ⟨hself, c, hc, name, List.mem_of_find?_eq_some hfind, ?_⟩
    simpa using List.find?_some hfind
  · rintro ⟨hself, c, hc, name, hneed, hget⟩
    have hsome : ((needs c).find? fun name => Fields.get? name producers = some i).isSome :=
      List.find?_isSome.2 ⟨name, hneed, by simpa using hget⟩
    obtain ⟨first, hfind⟩ := Option.isSome_iff_exists.1 hsome
    exact hasEdge_of_mem (e := ⟨i, j, first⟩) (mem_edgesOf.2 ⟨hself, c, hc, hfind⟩)

end Graph
end ArtifactFlow
