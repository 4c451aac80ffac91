import ArtifactFlow.Proofs.Graph.Schedule

/-!
The cycle that is reported where there is no order. It is a circle of crafts, each of which makes
something that the next one needs; the first one closes it, and no other stands in it twice. The
order has no other way to fail.
-/

namespace ArtifactFlow.Graph

/-- Crafts of a list in a circle: an edge leads from each to the next one, for which it makes
something, and only the first one stands there twice, at both ends. -/
structure Circle (g : Graph) (crafts circle : List Craft) : Prop where
  steps : circle.IsChain fun p c => p.Supplies c ∧
    ∃ i j, crafts[i]? = some p ∧ crafts[j]? = some c ∧ hasEdge g.edges i j
  closed : circle.head? = circle.getLast?
  simple : circle.tail.Nodup
  several : ∃ c ∈ circle, ∃ d ∈ circle, c ≠ d

variable {crafts : List Craft} {g : Graph} {cycle : List Nat} {i j : Nat} {e : Fault}

/-- An edge leaves every position of a cycle, since the last one is the first again. -/
theorem IsCycle.exists_leads (h : g.IsCycle cycle) (hi : i ∈ cycle) : ∃ j, g.Leads i j := by
  obtain ⟨front, back, rfl⟩ := List.append_of_mem hi
  cases back with
  | cons j back =>
      have hchain := (List.isChain_append.1 h.steps).2.1
      exact ⟨j, (List.isChain_cons_cons.1 hchain).1⟩
  | nil =>
      have closed := h.closed
      cases front with
      | nil => exact absurd h.long (by simp)
      | cons k front =>
          rw [List.getLast?_concat, List.cons_append, List.head?_cons] at closed
          obtain rfl := Option.some.inj closed
          cases front with
          | nil => exact ⟨k, (List.isChain_cons_cons.1 h.steps).1⟩
          | cons j front => exact ⟨j, (List.isChain_cons_cons.1 h.steps).1⟩

/-- A craft that something leads away from stands in one place, since what it makes has one
producer. -/
theorem eq_of_leads (h : ofCrafts crafts = .ok g) {k : Nat} (hleads : g.Leads i k)
    (heq : crafts[i]? = crafts[j]?) : i = j := by
  obtain ⟨-, p, c, hp, -, name, hmade, -⟩ := (leads_iff_feeds h).1 hleads
  have distinct : Fields.Distinct (productions crafts) := by
    rw [Fields.Distinct, keys_productions]
    exact (ofCrafts_eq_ok.1 h).1
  have hi : Fields.get? name (productions crafts) = some i :=
    (Fields.get?_eq_some_iff distinct).2 (mem_productions.2 ⟨p, hp, hmade⟩)
  have hj : Fields.get? name (productions crafts) = some j :=
    (Fields.get?_eq_some_iff distinct).2 (mem_productions.2 ⟨p, heq ▸ hp, hmade⟩)
  exact Option.some.inj (hi.symm.trans hj)

theorem of_checkAcyclic_eq_error (bounded : g.Bounded) (h : g.checkAcyclic = .error e) :
    ∃ cycle, g.IsCycle cycle ∧ e = .cyclicDependency (cycle.map g.nameAt) := by
  have explored := explored_findCycle bounded
  rw [checkAcyclic] at h
  cases hfind : g.findCycle with
  | ok _ => simp [hfind] at h
  | error cycle =>
      rw [hfind] at explored h
      exact ⟨cycle, explored, (Except.error.inj h).symm⟩

theorem nameAt_of_ofCrafts (h : ofCrafts crafts = .ok g) {c : Craft} (hc : crafts[i]? = some c) :
    g.nameAt i = c.name := by
  obtain ⟨-, rfl⟩ := ofCrafts_eq_ok.1 h
  simp [nameAt, hc]

theorem IsCycle.exists_crafts (h : ofCrafts crafts = .ok g) (hcycle : g.IsCycle cycle) :
    ∃ craftAt : Nat → Craft, ∀ i ∈ cycle, crafts[i]? = some (craftAt i) := by
  have present : ∀ i ∈ cycle, ∃ c, crafts[i]? = some c := by
    intro i hi
    obtain ⟨j, hij⟩ := hcycle.exists_leads hi
    obtain ⟨-, p, -, hp, -⟩ := (leads_iff_feeds h).1 hij
    exact ⟨p, hp⟩
  obtain ⟨a, ha⟩ := List.exists_mem_of_length_pos (Nat.zero_lt_of_lt hcycle.long)
  obtain ⟨first, -⟩ := present a ha
  refine ⟨fun i => crafts[i]?.getD first, fun i hi => ?_⟩
  obtain ⟨c, hc⟩ := present i hi
  simp [hc]

/-- The crafts at the positions of a cycle are a circle. -/
theorem IsCycle.circle (h : ofCrafts crafts = .ok g) (hcycle : g.IsCycle cycle)
    {craftAt : Nat → Craft} (hat : ∀ i ∈ cycle, crafts[i]? = some (craftAt i)) :
    g.Circle crafts (cycle.map craftAt) := by
  have injective : ∀ i ∈ cycle, ∀ j ∈ cycle, craftAt i = craftAt j → i = j := by
    intro i hi j hj heq
    obtain ⟨k, hik⟩ := hcycle.exists_leads hi
    exact eq_of_leads h hik (by rw [hat i hi, hat j hj, heq])
  constructor
  case steps =>
    refine (List.isChain_map craftAt).2 (hcycle.steps.imp_of_mem_imp ?_)
    intro i j hi hj hij
    obtain ⟨-, p, c, hp, hc, hsupplies⟩ := (leads_iff_feeds h).1 hij
    obtain rfl := Option.some.inj ((hat i hi).symm.trans hp)
    obtain rfl := Option.some.inj ((hat j hj).symm.trans hc)
    exact ⟨hsupplies, i, j, hp, hc, hij⟩
  case closed => rw [List.head?_map, List.getLast?_map, hcycle.closed]
  case simple =>
    rw [← List.map_tail]
    refine hcycle.simple.map_on fun i hi j hj => ?_
    exact injective i (List.mem_of_mem_tail hi) j (List.mem_of_mem_tail hj)
  case several =>
    match cycle, hcycle.long with
    | a :: b :: rest, _ =>
        have hab : g.Leads a b := (List.isChain_cons_cons.1 hcycle.steps).1
        have ha : a ∈ a :: b :: rest := List.mem_cons_self
        have hb : b ∈ a :: b :: rest := List.mem_cons_of_mem a List.mem_cons_self
        refine ⟨craftAt a, List.mem_map_of_mem ha, craftAt b, List.mem_map_of_mem hb, ?_⟩
        exact fun heq => ((leads_iff_feeds h).1 hab).1 (injective a ha b hb heq)

/-- Crafts that depend on themselves through others have no order, and the error names a circle of
them; whenever there is no order, the search for a cycle has said so. -/
theorem order_of_cyclic (h : ofCrafts crafts = .ok g) :
    (¬ Acyclic crafts → ∃ circle, g.Circle crafts circle ∧
      g.order = .error (.cyclicDependency (circle.map (·.name)))) ∧
    ∀ e, g.order = .error e → g.checkAcyclic = .error e := by
  have bounded := bounded_of_ofCrafts h
  constructor
  · intro cyclic
    cases hcheck : g.checkAcyclic with
    | ok _ =>
        rw [acyclic_iff_leads h] at cyclic
        exact absurd ((checkAcyclic_eq_ok bounded).1 hcheck) cyclic
    | error e =>
        obtain ⟨cycle, hcycle, rfl⟩ := of_checkAcyclic_eq_error bounded hcheck
        obtain ⟨craftAt, hat⟩ := hcycle.exists_crafts h
        refine ⟨cycle.map craftAt, hcycle.circle h hat, ?_⟩
        have hnames : cycle.map g.nameAt = (cycle.map craftAt).map (·.name) := by
          rw [List.map_map]
          exact List.map_congr_left fun i hi => nameAt_of_ofCrafts h (hat i hi)
        rw [Graph.order, hcheck, error_bind, hnames]
  · intro e he
    cases hcheck : g.checkAcyclic with
    | error e' =>
        rw [Graph.order, hcheck, error_bind] at he
        rw [Except.error.inj he]
    | ok _ =>
        have horder := (order_eq_ok bounded).2 ⟨(checkAcyclic_eq_ok bounded).1 hcheck, rfl⟩
        cases horder.symm.trans he

namespace Village

/-- Everyone waits for bread: the shop is outside of the circle that the others are in. -/
def villagers : List Craft :=
  [.plain 0 "shop" ["bread"] [], .plain 1 "oven" ["flour"] ["bread"],
    .plain 2 "farm" ["bread"] ["grain"], .plain 3 "mill" ["grain"] ["flour"]]

theorem not_acyclic : ¬ Acyclic villagers := by
  have oven_farm : Feeds villagers 1 2 := ⟨by decide, _, _, rfl, rfl, "bread", by decide, by decide⟩
  have farm_mill : Feeds villagers 2 3 := ⟨by decide, _, _, rfl, rfl, "grain", by decide, by decide⟩
  have mill_oven : Feeds villagers 3 1 := ⟨by decide, _, _, rfl, rfl, "flour", by decide, by decide⟩
  exact fun acyclic => acyclic 1 (.head oven_farm (.head farm_mill (.single mill_oven)))

end Village

open Village in
theorem order_of_cyclic_village :
    ∃ g circle, ofCrafts villagers = .ok g ∧ g.Circle villagers circle ∧
      g.order = .error (.cyclicDependency (circle.map (·.name))) ∧
      circle.map (·.name) = ["oven", "farm", "mill", "oven"] := by
  obtain ⟨g, hg, hfault⟩ : ∃ g, ofCrafts villagers = .ok g ∧
      g.order = .error (.cyclicDependency ["oven", "farm", "mill", "oven"]) := ⟨_, rfl, rfl⟩
  obtain ⟨hcyclic, -⟩ := order_of_cyclic hg
  obtain ⟨circle, hcircle, horder⟩ := hcyclic not_acyclic
  refine ⟨g, circle, hg, hcircle, horder, ?_⟩
  exact Fault.cyclicDependency.inj (Except.error.inj (horder.symm.trans hfault))

end ArtifactFlow.Graph
