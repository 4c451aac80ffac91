import ArtifactFlow.Proofs.Except
import ArtifactFlow.Proofs.Fields
import ArtifactFlow.Proofs.Graph.Edges
import ArtifactFlow.Proofs.Names
import Mathlib.Logic.Relation

/-!
What a graph says about its crafts: it exists if no name is made twice, and it has an edge from one
position to another one exactly if the first craft makes a name that the second one needs. Cycles
are stated here on the crafts, without reference to how the graph is kept.
-/

namespace ArtifactFlow

/-- The first craft makes a name that the second one needs. -/
def Craft.Supplies (p c : Craft) : Prop :=
  ∃ name ∈ p.contract.producedNames, name ∈ Graph.needs c

/-- A craft that needs and makes artifacts by name, and does nothing else. -/
def Craft.plain (id : Nat) (name : String) (needed made : List String) : Craft where
  id
  name
  contract := ⟨needed.map (⟨·, .artifact, none⟩), made.map (⟨·, .artifact⟩)⟩
  body := fun _ => .ok (made.map (·, .null))
  hooks := []

namespace Graph

/-- Of two crafts in a list, the first one makes a name that the second one needs. -/
def Feeds (crafts : List Craft) (i j : Nat) : Prop :=
  i ≠ j ∧ ∃ p c, crafts[i]? = some p ∧ crafts[j]? = some c ∧ p.Supplies c

/-- No craft of a list needs, directly or through others, what it makes for others. -/
def Acyclic (crafts : List Craft) : Prop :=
  ∀ i, ¬ Relation.TransGen (Feeds crafts) i i

/-- Every name that is made, with the position of its producer. -/
def productions (crafts : List Craft) : Producers :=
  crafts.zipIdx.flatMap fun (c, i) => c.contract.producedNames.map (·, i)

/-- The names that are made, by all crafts together. -/
def madeNames (crafts : List Craft) : List String :=
  crafts.flatMap (·.contract.producedNames)

theorem mem_productions {crafts : List Craft} {name : String} {i : Nat} :
    (name, i) ∈ productions crafts ↔
      ∃ c, crafts[i]? = some c ∧ name ∈ c.contract.producedNames := by
  simp only [productions, List.mem_flatMap, List.mem_map, Prod.exists,
    List.mk_mem_zipIdx_iff_getElem?, Prod.mk.injEq]
  constructor
  · rintro ⟨c, _, hc, _, hname, rfl, rfl⟩
    exact ⟨c, hc, hname⟩
  · rintro ⟨c, hc, hname⟩
    exact ⟨c, i, hc, name, hname, rfl, rfl⟩

theorem keys_productions (crafts : List Craft) :
    Fields.keys (productions crafts) = madeNames crafts := by
  have h : crafts.zipIdx.flatMap (fun x => x.1.contract.producedNames) = madeNames crafts := by
    calc
      _ = (crafts.zipIdx.map (·.1)).flatMap (·.contract.producedNames) := by
        rw [List.flatMap_map]
      _ = madeNames crafts := by rw [List.zipIdx_map_fst, madeNames]
  simpa [Fields.keys, productions, List.map_flatMap, Function.comp_def] using h

/-- Where no name is made twice, looking up a name finds the craft that makes it. -/
theorem get?_productions {crafts : List Craft} (hmade : (madeNames crafts).Nodup) {name : String}
    {i : Nat} : Fields.get? name (productions crafts) = some i ↔
      ∃ c, crafts[i]? = some c ∧ name ∈ c.contract.producedNames := by
  have distinct : Fields.Distinct (productions crafts) := by
    rwa [Fields.Distinct, keys_productions]
  rw [Fields.get?_eq_some_iff distinct, mem_productions]

theorem addProducer_eq_ok {nameOf : Nat → String} {i : Nat} {producers after : Producers}
    {p : Production} : addProducer nameOf i producers p = .ok after ↔
      p.name ∉ Fields.keys producers ∧ after = producers ++ [(p.name, i)] := by
  rw [← Fields.get?_eq_none_iff, addProducer]
  cases h : Fields.get? p.name producers with
  | none => simp [Fields.insert_of_get?_eq_none h, eq_comm]
  | some first => simp

/-- Producers are collected in order, as long as no name comes twice. -/
theorem foldlM_addProducer_eq_ok {nameOf : Nat → String} {made : List (Nat × Production)}
    {producers after : Producers} (distinct : Fields.Distinct producers) :
    made.foldlM (fun producers (i, p) => addProducer nameOf i producers p) producers = .ok after ↔
      after = producers ++ made.map (fun (i, p) => (p.name, i)) ∧ Fields.Distinct after := by
  induction made generalizing producers with
  | nil =>
      simp only [List.foldlM_nil, pure_eq_ok, Except.ok.injEq, List.map_nil, List.append_nil]
      exact ⟨fun h => ⟨h.symm, h ▸ distinct⟩, fun h => h.1.symm⟩
  | cons entry made ih =>
      obtain ⟨i, p⟩ := entry
      simp only [List.foldlM_cons, bind_eq_ok, addProducer_eq_ok, List.map_cons]
      constructor
      · rintro ⟨_, ⟨hnew, rfl⟩, hrest⟩
        simpa using (ih (Fields.distinct_snoc.2 ⟨distinct, hnew⟩)).1 hrest
      · rintro ⟨rfl, hafter⟩
        have hmid : Fields.Distinct (producers ++ [(p.name, i)]) := by
          refine List.Nodup.sublist ?_ hafter
          simp [Fields.keys]
        exact ⟨_, ⟨(Fields.distinct_snoc.1 hmid).2, rfl⟩, (ih hmid).2 ⟨by simp, hafter⟩⟩

/-- Every output of a list of crafts, after the position of the craft that makes it. -/
def outputs (crafts : List Craft) : List (Nat × Production) :=
  crafts.zipIdx.flatMap fun (c, i) => c.contract.produced.map (i, ·)

theorem producersOf_eq (crafts : List Craft) : producersOf crafts =
    (outputs crafts).foldlM (fun producers (i, p) =>
      addProducer (fun i => (crafts[i]?.map Craft.name).getD "") i producers p) [] := by
  rw [outputs, foldlM_flatMap]
  simp only [List.foldlM_map]
  rfl

theorem producersOf_eq_ok {crafts : List Craft} {producers : Producers} :
    producersOf crafts = .ok producers ↔
      (madeNames crafts).Nodup ∧ producers = productions crafts := by
  have entries : (outputs crafts).map (fun (i, p) => (p.name, i)) = productions crafts := by
    simp [outputs, productions, List.map_flatMap, Contract.producedNames, Function.comp_def]
  have empty : Fields.Distinct ([] : Producers) := List.nodup_nil
  rw [producersOf_eq, foldlM_addProducer_eq_ok empty, List.nil_append, entries, and_comm]
  refine and_congr_left ?_
  rintro rfl
  rw [Fields.Distinct, keys_productions]

/-- A graph exists exactly if no name is made twice. -/
theorem ofCrafts_eq_ok {crafts : List Craft} {g : Graph} :
    ofCrafts crafts = .ok g ↔ (madeNames crafts).Nodup ∧
      g = ⟨crafts.map (·.name), edgesOf (productions crafts) crafts, sortedNames
        ((crafts.flatMap needs).filter fun name => !Fields.contains name (productions crafts))⟩ := by
  simp only [ofCrafts, bind_eq_ok, producersOf_eq_ok, pure_eq_ok, Except.ok.injEq]
  constructor
  · rintro ⟨_, ⟨hmade, rfl⟩, rfl⟩
    exact ⟨hmade, rfl⟩
  · rintro ⟨hmade, rfl⟩
    exact ⟨_, ⟨hmade, rfl⟩, rfl⟩

/-- An external input is a name that some craft needs and no craft makes, in whatever way. -/
theorem mem_externalInputs {crafts : List Craft} {g : Graph} (h : ofCrafts crafts = .ok g)
    {name : String} : name ∈ g.externalInputs ↔
      (∃ c ∈ crafts, name ∈ needs c) ∧ ∀ c ∈ crafts, name ∉ c.contract.producedNames := by
  obtain ⟨-, rfl⟩ := ofCrafts_eq_ok.1 h
  have hmade : Fields.contains name (productions crafts) = false ↔ name ∉ madeNames crafts := by
    rw [← keys_productions, ← Fields.get?_eq_none_iff, Fields.contains]
    cases Fields.get? name (productions crafts) <;> simp
  simp [mem_sortedNames, hmade, madeNames]

theorem error_of_addProducer {nameOf : Nat → String} {i : Nat} {producers : Producers}
    {p : Production} {e : Fault} (h : addProducer nameOf i producers p = .error e) :
    ∃ name first second, e = .ambiguousProducer name first second := by
  rw [addProducer] at h
  cases hget : Fields.get? p.name producers with
  | none => simp [hget] at h
  | some first =>
      simp only [hget, Except.error.injEq] at h
      exact ⟨_, _, _, h.symm⟩

/-- A graph is refused for a name that is made twice, and for nothing else. -/
theorem error_of_ofCrafts {crafts : List Craft} {e : Fault} (h : ofCrafts crafts = .error e) :
    ∃ name first second, e = .ambiguousProducer name first second := by
  cases bind_eq_error.1 h with
  | inl hproducers =>
      obtain ⟨_, _, -, hcraft⟩ := exists_of_foldlM_eq_error hproducers
      obtain ⟨_, _, -, hproduction⟩ := exists_of_foldlM_eq_error hcraft
      exact error_of_addProducer hproduction
  | inr hrest =>
      obtain ⟨_, -, hrest⟩ := hrest
      exact absurd hrest (by simp)

/-- The edges of a graph say which craft feeds which. -/
theorem hasEdge_iff_feeds {crafts : List Craft} {g : Graph} (h : ofCrafts crafts = .ok g)
    {i j : Nat} : hasEdge g.edges i j ↔ Feeds crafts i j := by
  obtain ⟨hmade, rfl⟩ := ofCrafts_eq_ok.1 h
  rw [hasEdge_edgesOf]
  refine and_congr_right fun _ => ?_
  constructor
  · rintro ⟨c, hc, name, hneed, hget⟩
    obtain ⟨p, hp, hname⟩ := (get?_productions hmade).1 hget
    exact ⟨p, c, hp, hc, name, hname, hneed⟩
  · rintro ⟨p, c, hp, hc, name, hname, hneed⟩
    exact ⟨c, hc, name, hneed, (get?_productions hmade).2 ⟨p, hp, hname⟩⟩

theorem mem_consumers {g : Graph} {i j : Nat} : j ∈ g.consumers i ↔ hasEdge g.edges i j := by
  simp [consumers, hasEdge, and_assoc]

theorem mem_suppliers {g : Graph} {i j : Nat} : i ∈ g.suppliers j ↔ hasEdge g.edges i j := by
  simp only [suppliers, hasEdge, List.mem_map, List.mem_filter, List.any_eq_true,
    Bool.and_eq_true, decide_eq_true_eq]
  constructor
  · rintro ⟨e, ⟨he, rfl⟩, rfl⟩
    exact ⟨e, he, rfl, rfl⟩
  · rintro ⟨e, he, rfl, rfl⟩
    exact ⟨e, ⟨he, rfl⟩, rfl⟩

end Graph
end ArtifactFlow
