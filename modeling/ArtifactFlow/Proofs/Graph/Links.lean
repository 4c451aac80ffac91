import ArtifactFlow.Proofs.Pipeline.Construction

/-!
What the graph of a list of crafts says, link by link: two crafts are linked once if the first one
makes something that the second one needs, under the first such name. A list that has no graph holds
two crafts that make the same name.
-/

namespace ArtifactFlow.Graph

/-- The first name that the second craft needs of those that the first one makes. -/
def firstLink? (p c : Craft) : Option String :=
  (needs c).find? p.contract.produces

/-- What the link between two positions says: the names of the two crafts, and the first name that
the one needs from the other. -/
def link? (crafts : List Craft) (ends : Nat × Nat) : Option (String × String × String) := do
  let p ← crafts[ends.1]?
  let c ← crafts[ends.2]?
  return (p.name, c.name, ← firstLink? p c)

/-- Two entries of a list of crafts, in their order, make the same name. -/
def Clash (crafts : List Craft) (name : String) (first second : Craft) : Prop :=
  ∃ i j : Nat, i < j ∧ crafts[i]? = some first ∧ crafts[j]? = some second ∧
    name ∈ first.contract.producedNames ∧ name ∈ second.contract.producedNames

/-- The graph links every two crafts that depend on each other once, and its external inputs are
what is required as an artifact or a volatile and made by no craft. -/
structure Describes (g : Graph) (crafts : List Craft) : Prop where
  links : ∃ pairs : List (Nat × Nat), pairs.Nodup ∧ (∀ i j, (i, j) ∈ pairs ↔ Feeds crafts i j) ∧
    g.links.map some = pairs.map (link? crafts)
  externalInputs : ∀ name, name ∈ g.externalInputs ↔
    (∃ c ∈ crafts, ∃ r ∈ c.contract.required, r.kind ≠ .param ∧ r.name = name) ∧
      ∀ c ∈ crafts, name ∉ c.contract.producedNames
  ascending : g.externalInputs.Pairwise (· < ·)

variable {crafts : List Craft} {g : Graph} {e : Edge}

theorem mem_needs_iff {craft : Craft} {name : String} : name ∈ needs craft ↔
    ∃ r ∈ craft.contract.required, r.kind ≠ .param ∧ r.name = name := by
  simp [needs, Contract.dependencies, and_assoc]

theorem nameAt_ofCrafts (h : ofCrafts crafts = .ok g) {i : Nat} {c : Craft}
    (hc : crafts[i]? = some c) : g.nameAt i = c.name := by
  obtain ⟨-, rfl⟩ := ofCrafts_eq_ok.1 h
  simp [nameAt, hc]

/-- An edge says what links the crafts at its ends. -/
theorem link?_ends (h : ofCrafts crafts = .ok g) (he : e ∈ g.edges) :
    link? crafts e.ends = some (g.nameAt e.producer, g.nameAt e.consumer, e.name) := by
  obtain ⟨-, p, c, hp, hc, -⟩ := (hasEdge_iff_feeds h).1 (hasEdge_of_mem he)
  obtain ⟨hmade, hg⟩ := ofCrafts_eq_ok.1 h
  have hmem : e ∈ edgesOf (productions crafts) crafts := by
    rwa [hg] at he
  obtain ⟨-, c', hc', hfind⟩ := mem_edgesOf.1 hmem
  obtain rfl : c = c' := Option.some.inj (hc.symm.trans hc')
  have hsame : p.contract.produces =
      fun name => decide (Fields.get? name (productions crafts) = some e.producer) := by
    funext name
    rw [Bool.eq_iff_iff, decide_eq_true_iff, get?_productions hmade, Contract.produces,
      List.contains_iff_mem]
    simp [hp]
  have hlink : firstLink? p c = some e.name := by
    rw [firstLink?, hsame, hfind]
  rw [nameAt_ofCrafts h hp, nameAt_ofCrafts h hc]
  simp [link?, Edge.ends, hp, hc, hlink]

theorem describes_of_ofCrafts (h : ofCrafts crafts = .ok g) : g.Describes crafts where
  links := by
    refine ⟨g.edges.map Edge.ends, ?_, fun i j => ?_, ?_⟩
    · obtain ⟨-, rfl⟩ := ofCrafts_eq_ok.1 h
      exact nodup_edgesOf _ _
    · rw [← hasEdge_iff_ends, hasEdge_iff_feeds h]
    · rw [links, List.map_map, List.map_map]
      exact List.map_congr_left fun e he => (link?_ends h he).symm
  externalInputs name := by
    rw [mem_externalInputs h]
    simp only [mem_needs_iff]
  ascending := by
    obtain ⟨-, rfl⟩ := ofCrafts_eq_ok.1 h
    exact pairwise_sortedNames _

theorem mem_outputs {i : Nat} {p : Production} :
    (i, p) ∈ outputs crafts ↔ ∃ c, crafts[i]? = some c ∧ p ∈ c.contract.produced := by
  simp only [outputs, List.mem_flatMap, List.mem_map, Prod.exists,
    List.mk_mem_zipIdx_iff_getElem?, Prod.mk.injEq]
  constructor
  · rintro ⟨c, _, hc, _, hp, rfl, rfl⟩
    exact ⟨c, hc, hp⟩
  · rintro ⟨c, hc, hp⟩
    exact ⟨c, i, hc, p, hp, rfl, rfl⟩

/-- Of two outputs of one name the earlier one is made by an earlier craft, since no craft declares
a name twice. -/
theorem pairwise_outputs (made : ∀ c ∈ crafts, c.Made) :
    (outputs crafts).Pairwise fun a b => a.2.name = b.2.name → a.1 < b.1 := by
  rw [outputs, List.pairwise_flatMap]
  constructor
  · rintro ⟨c, i⟩ hc
    rw [List.mk_mem_zipIdx_iff_getElem?] at hc
    have hnodup := Craft.made_iff.1 (made c (List.mem_of_getElem? hc))
    refine List.pairwise_map.2 ((List.pairwise_map.1 hnodup).imp ?_)
    intro p q hne heq
    exact absurd heq hne
  · have hlt : (crafts.zipIdx.map (·.2)).Pairwise (· < ·) := by
      rw [List.zipIdx_map_snd]
      exact List.pairwise_lt_range'
    refine (List.pairwise_map.1 hlt).imp ?_
    rintro ⟨c, i⟩ ⟨d, j⟩ hij x hx y hy -
    obtain ⟨p, -, rfl⟩ := List.mem_map.1 hx
    obtain ⟨q, -, rfl⟩ := List.mem_map.1 hy
    exact hij

/-- Collecting producers stops at an output whose name an earlier output has. -/
theorem exists_of_foldlM_addProducer {nameOf : Nat → String} {made : List (Nat × Production)}
    {producers : Producers} {e : Fault}
    (h : made.foldlM (fun producers (i, p) => addProducer nameOf i producers p) producers =
      .error e) : ∃ before i p after first, made = before ++ (i, p) :: after ∧
        Fields.get? p.name (producers ++ before.map fun (i, p) => (p.name, i)) = some first ∧
          e = .ambiguousProducer p.name (nameOf first) (nameOf i) := by
  induction made generalizing producers with
  | nil => cases h
  | cons entry made ih =>
      obtain ⟨i, p⟩ := entry
      rcases bind_eq_error.1 h with hstep | ⟨mid, hstep, hrest⟩
      · change addProducer nameOf i producers p = .error e at hstep
        rw [addProducer] at hstep
        cases hget : Fields.get? p.name producers with
        | none => simp [hget] at hstep
        | some first =>
            obtain rfl : _ = e := by simpa [hget] using hstep
            exact ⟨[], i, p, made, first, rfl, by simpa using hget, rfl⟩
      · obtain ⟨-, rfl⟩ := addProducer_eq_ok.1 hstep
        obtain ⟨before, j, q, after, first, rfl, hget, rfl⟩ := ih hrest
        exact ⟨(i, p) :: before, j, q, after, first, rfl, by simpa using hget, rfl⟩

/-- A list of crafts is refused for two of them that make the same name, and they are named. -/
theorem clash_of_ofCrafts (made : ∀ c ∈ crafts, c.Made) {e : Fault}
    (h : ofCrafts crafts = .error e) : ∃ name first second,
      Clash crafts name first second ∧ e = .ambiguousProducer name first.name second.name := by
  rcases bind_eq_error.1 h with hproducers | ⟨_, -, hrest⟩
  · rw [producersOf_eq] at hproducers
    obtain ⟨before, j, q, after, i, hsplit, hget, rfl⟩ := exists_of_foldlM_addProducer hproducers
    rw [List.nil_append] at hget
    obtain ⟨⟨_, p⟩, hbefore, hentry⟩ := List.mem_map.1 (Fields.mem_of_get?_eq_some hget)
    obtain ⟨hname, rfl⟩ := Prod.mk.inj hentry
    have hpairwise := pairwise_outputs made
    rw [hsplit] at hpairwise
    have hlt := (List.pairwise_append.1 hpairwise).2.2 _ hbefore _ List.mem_cons_self hname
    obtain ⟨first, hfirst, hp⟩ := mem_outputs.1 (hsplit ▸ List.mem_append_left _ hbefore)
    obtain ⟨second, hsecond, hq⟩ := mem_outputs.1
      (hsplit ▸ List.mem_append_right before List.mem_cons_self)
    refine ⟨q.name, first, second, ⟨_, j, hlt, hfirst, hsecond, ?_, List.mem_map_of_mem hq⟩, ?_⟩
    · exact hname ▸ List.mem_map_of_mem hp
    · simp [hfirst, hsecond]
  · exact absurd hrest (by simp)

theorem Clash.not_nodup {name : String} {first second : Craft}
    (h : Clash crafts name first second) : ¬ (madeNames crafts).Nodup := by
  obtain ⟨i, j, hlt, hfirst, hsecond, hname, hname'⟩ := h
  intro hnodup
  obtain ⟨hi, hfirst⟩ := List.getElem?_eq_some_iff.1 hfirst
  obtain ⟨hj, hsecond⟩ := List.getElem?_eq_some_iff.1 hsecond
  have hdisjoint := List.pairwise_iff_getElem.1 (List.nodup_flatMap.1 hnodup).2 i j hi hj hlt
  rw [hfirst, hsecond] at hdisjoint
  exact hdisjoint hname hname'

/-- The graph of a list of crafts links two of them exactly once if the first one makes a name that
the second one requires as an artifact or as a volatile, under the first such name, and not
otherwise; its external inputs are the names so required that no craft makes. A list has no graph
exactly if some name is made by two of its entries, and that is what the fault says. -/
theorem ofCrafts_account (made : ∀ c ∈ crafts, c.Made) :
    (∀ g, ofCrafts crafts = .ok g → g.Describes crafts) ∧
      ((∃ e, ofCrafts crafts = .error e) ↔
        ∃ name first second, Clash crafts name first second) ∧
      ∀ e, ofCrafts crafts = .error e → ∃ name first second,
        Clash crafts name first second ∧ e = .ambiguousProducer name first.name second.name := by
  refine ⟨fun g => describes_of_ofCrafts, ?_, fun e => clash_of_ofCrafts made⟩
  constructor
  · rintro ⟨e, h⟩
    obtain ⟨name, first, second, hclash, -⟩ := clash_of_ofCrafts made h
    exact ⟨name, first, second, hclash⟩
  · rintro ⟨name, first, second, hclash⟩
    cases h : ofCrafts crafts with
    | error e => exact ⟨e, rfl⟩
    | ok g => exact absurd (ofCrafts_eq_ok.1 h).1 hclash.not_nodup

/-- The oven needs two outputs of the mill. The cook has only an argument of the name of what the
oven makes, and refreshes the leaven by itself. -/
def kitchen : List Craft :=
  [⟨0, "cook", ⟨[⟨"bread", .param, none⟩, ⟨"leaven", .artifact, none⟩, ⟨"bran", .volatile, none⟩],
      [⟨"leaven", .artifact⟩]⟩, fun _ => .ok [], []⟩,
    ⟨1, "oven", ⟨[⟨"salt", .artifact, none⟩, ⟨"bran", .volatile, none⟩, ⟨"flour", .artifact, none⟩],
      [⟨"bread", .artifact⟩]⟩, fun _ => .ok [], []⟩,
    ⟨2, "mill", ⟨[], [⟨"flour", .artifact⟩, ⟨"bran", .volatile⟩]⟩, fun _ => .ok [], []⟩]

theorem ofCrafts_account_kitchen : (∀ c ∈ kitchen, c.Made) ∧ ∃ g, ofCrafts kitchen = .ok g ∧
    g.Describes kitchen ∧ g.externalInputs = ["salt"] ∧
      g.links = [("mill", "cook", "bran"), ("mill", "oven", "bran")] := by
  have made : ∀ c ∈ kitchen, c.Made := by
    simp only [Craft.made_iff]
    decide
  obtain ⟨describes, -, -⟩ := ofCrafts_account made
  exact ⟨made, _, rfl, describes _ rfl, rfl, rfl⟩

end ArtifactFlow.Graph
