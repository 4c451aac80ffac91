import ArtifactFlow.Proofs.Graph.Agenda
import Mathlib.Data.Fintype.EquivFin
import Mathlib.Data.List.Lex
import Mathlib.Order.WellFounded

/-!
The order in which crafts run. Crafts that can be scheduled at all are scheduled, every producer
before its consumers, and of all such schedules the chosen one is least when positions are compared
from the front.
-/

namespace ArtifactFlow.Graph

/-- All crafts of a list, each once, and every producer before its consumers. -/
structure Schedule (crafts : List Craft) (order : List Nat) : Prop where
  perm : order.Perm (List.range crafts.length)
  producers_first : ∀ i j, Feeds crafts i j → order.idxOf i < order.idxOf j

/-- What can run without end is blocked by a cycle alone. -/
theorem exists_isReady {g : Graph} (acyclic : ∀ i, ¬ Relation.TransGen g.Leads i i)
    (bounded : g.Bounded) {done : List Nat} (hlen : done.length < g.size) :
    ∃ i < g.size, g.isReady done i := by
  let r : Fin g.size → Fin g.size → Prop := fun a b => Relation.TransGen g.Leads a b
  have : IsTrans (Fin g.size) r := ⟨fun _ _ _ => Relation.TransGen.trans⟩
  have : Std.Irrefl r := ⟨fun i => acyclic i⟩
  have wf : WellFounded r := Finite.wellFounded_of_trans_of_irrefl r
  have waiting : ∃ i : Fin g.size, i.val ∉ done := by
    by_contra hall
    push Not at hall
    have hsub : List.range g.size ⊆ done := fun i hi => hall ⟨i, List.mem_range.1 hi⟩
    have := (List.nodup_range.subperm hsub).length_le
    rw [List.length_range] at this
    omega
  -- Whatever a minimal waiting position waits for is done.
  obtain ⟨i, hi, least⟩ := wf.has_min {i | i.val ∉ done} waiting
  refine ⟨i, i.isLt, isReady_iff.2 ⟨hi, ?_⟩⟩
  intro j hj
  by_contra hjdone
  exact least ⟨j, (bounded j i hj).1⟩ hjdone (.single hj)

/-- Where there is no cycle all crafts get a turn. -/
theorem length_extend {g : Graph} (acyclic : ∀ i, ¬ Relation.TransGen g.Leads i i)
    (bounded : g.Bounded) : (g.extend g.size []).length = g.size := by
  have hle : (g.extend g.size []).length ≤ g.size := by
    obtain ⟨rest, heq, hruns, -⟩ := exists_extend_eq (g := g) g.size []
    rw [heq]
    exact hruns.length_le
  apply hle.antisymm
  by_contra hlt
  obtain ⟨i, hi, hready⟩ := exists_isReady acyclic bounded (Nat.lt_of_not_le hlt)
  exact g.not_isReady_extend hi hready

/-- The first ready craft is taken at every turn, so no run is lexicographically smaller. -/
theorem Runs.extend_le {g : Graph} {done rest : List Nat} (h : g.Runs done rest) :
    g.extend rest.length done = done ++ rest ∨
      List.Lex (· < ·) (g.extend rest.length done) (done ++ rest) := by
  induction rest generalizing done with
  | nil => exact .inl (by simp [extend])
  | cons b rest ih =>
      obtain ⟨hsize, hready, hrest⟩ := h
      obtain ⟨a, ha⟩ : ∃ a, g.nextReady? done = some a := by
        refine Option.isSome_iff_exists.1 (List.find?_isSome.2 ?_)
        exact ⟨b, List.mem_range.2 hsize, hready⟩
      have hle : a ≤ b := Nat.le_of_not_lt fun hlt => (nextReady?_eq_some.1 ha).2 b hlt hready
      rw [List.length_cons, extend, ha]
      -- The choice agrees with the other run, or is smaller and decides the comparison.
      rcases hle.eq_or_lt with rfl | hlt
      · simpa using ih hrest
      · obtain ⟨more, heq, -, -⟩ := exists_extend_eq (g := g) rest.length (done ++ [a])
        refine .inr ?_
        simp only [heq, List.append_assoc, List.singleton_append]
        exact List.Lex.append_left _ (.rel hlt) done

/-- A graph has an order exactly if it has no cycle. -/
theorem order_eq_ok {g : Graph} (bounded : g.Bounded) {order : List Nat} :
    g.order = .ok order ↔
      (∀ i, ¬ Relation.TransGen g.Leads i i) ∧ order = g.extend g.size [] := by
  rw [Graph.order_eq]
  cases hcheck : g.checkAcyclic with
  | error fault =>
      have cyclic : ¬ ∀ i, ¬ Relation.TransGen g.Leads i i := fun h => by
        rw [(checkAcyclic_eq_ok bounded).2 h] at hcheck
        exact absurd hcheck (by simp)
      simp [cyclic]
  | ok _ =>
      have acyclic := (checkAcyclic_eq_ok bounded).1 hcheck
      simp only [ok_bind, length_extend acyclic bounded, ite_true, pure_eq_ok, Except.ok.injEq]
      exact ⟨fun h => ⟨acyclic, h.symm⟩, fun h => h.2.symm⟩

theorem error_of_order {g : Graph} {e : Fault} (h : g.order = .error e) :
    ∃ crafts, e = .cyclicDependency crafts := by
  rw [Graph.order_eq] at h
  cases bind_eq_error.1 h with
  | inl hcheck =>
      rw [checkAcyclic] at hcheck
      cases hfind : g.findCycle with
      | ok _ => simp [hfind] at hcheck
      | error cycle =>
          simp only [hfind, Except.error.injEq] at hcheck
          exact ⟨_, hcheck.symm⟩
  | inr hrest =>
      obtain ⟨_, -, hrest⟩ := hrest
      by_cases hlen : (g.extend g.size []).length = g.size
      · simp [hlen] at hrest
      · simp only [hlen, if_false] at hrest
        exact ⟨_, (Except.error.inj hrest).symm⟩

theorem leads_iff_feeds {crafts : List Craft} {g : Graph} (h : ofCrafts crafts = .ok g)
    {i j : Nat} : g.Leads i j ↔ Feeds crafts i j :=
  hasEdge_iff_feeds h

theorem size_of_ofCrafts {crafts : List Craft} {g : Graph} (h : ofCrafts crafts = .ok g) :
    g.size = crafts.length := by
  obtain ⟨-, rfl⟩ := ofCrafts_eq_ok.1 h
  simp [size]

theorem bounded_of_ofCrafts {crafts : List Craft} {g : Graph} (h : ofCrafts crafts = .ok g) :
    g.Bounded := by
  intro i j hij
  obtain ⟨-, p, c, hp, hc, -⟩ := (leads_iff_feeds h).1 hij
  rw [size_of_ofCrafts h]
  exact ⟨(List.getElem?_eq_some_iff.1 hp).1, (List.getElem?_eq_some_iff.1 hc).1⟩

theorem acyclic_iff_leads {crafts : List Craft} {g : Graph} (h : ofCrafts crafts = .ok g) :
    Acyclic crafts ↔ ∀ i, ¬ Relation.TransGen g.Leads i i := by
  have : g.Leads = Feeds crafts := by
    funext i j
    exact propext (leads_iff_feeds h)
  rw [Acyclic, this]

/-- A run of all crafts is a schedule. -/
theorem Runs.schedule {crafts : List Craft} {g : Graph} (h : ofCrafts crafts = .ok g)
    {order : List Nat} (runs : g.Runs [] order) (hlen : order.length = g.size) :
    Schedule crafts order := by
  have hnodup : order.Nodup := by simpa using runs.nodup List.nodup_nil
  have hperm : order.Perm (List.range g.size) := by
    refine (hnodup.subperm fun i hi => List.mem_range.2 (runs.lt_size hi)).perm_of_length_le ?_
    simp [hlen]
  refine ⟨size_of_ofCrafts h ▸ hperm, ?_⟩
  intro i j hij
  have hleads := (leads_iff_feeds h).2 hij
  have hj : j ∈ order := by
    rw [hperm.mem_iff, List.mem_range]
    exact (bounded_of_ofCrafts h i j hleads).2
  obtain ⟨first, second, rfl⟩ := List.append_of_mem hj
  obtain ⟨hnew, hsupplied⟩ := isReady_iff.1 (Runs.append.1 runs).2.2.1
  simp only [List.nil_append] at hnew hsupplied
  have hi := hsupplied i hleads
  rw [List.idxOf_append_of_mem hi, List.idxOf_append_of_notMem hnew, List.idxOf_cons_self,
    Nat.add_zero]
  exact List.idxOf_lt_length_iff.2 hi

theorem Schedule.nodup {crafts : List Craft} {order : List Nat} (h : Schedule crafts order) :
    order.Nodup :=
  h.perm.nodup_iff.2 List.nodup_range

/-- No position of a schedule is fed by a later one. -/
theorem Schedule.pairwise {crafts : List Craft} {order : List Nat} (h : Schedule crafts order) :
    order.Pairwise fun i j => i ≠ j ∧ ¬ Feeds crafts j i := by
  rw [List.pairwise_iff_getElem]
  intro a b ha hb hab
  constructor
  · intro heq
    exact absurd ((h.nodup.getElem_inj_iff).1 heq) (Nat.ne_of_lt hab)
  · intro hfeeds
    have := h.producers_first _ _ hfeeds
    rw [h.nodup.idxOf_getElem, h.nodup.idxOf_getElem] at this
    omega

/-- A schedule is a run of all crafts. -/
theorem Schedule.runs {crafts : List Craft} {g : Graph} (h : ofCrafts crafts = .ok g)
    {done rest : List Nat} (schedule : Schedule crafts (done ++ rest)) : g.Runs done rest := by
  induction rest generalizing done with
  | nil => trivial
  | cons i rest ih =>
      have hi : i ∉ done := fun hmem =>
        (List.nodup_append.1 schedule.nodup).2.2 i hmem i List.mem_cons_self rfl
      refine ⟨?_, isReady_iff.2 ⟨hi, ?_⟩, ih (by simpa using schedule)⟩
      · rw [size_of_ofCrafts h, ← List.mem_range, ← schedule.perm.mem_iff]
        exact List.mem_append_right _ List.mem_cons_self
      · intro j hj
        have hlt := schedule.producers_first j i ((leads_iff_feeds h).1 hj)
        rw [List.idxOf_append_of_notMem hi, List.idxOf_cons_self, Nat.add_zero] at hlt
        by_contra hnot
        rw [List.idxOf_append_of_notMem hnot] at hlt
        omega

theorem schedule_extend {crafts : List Craft} {g : Graph} (h : ofCrafts crafts = .ok g)
    (acyclic : Acyclic crafts) : Schedule crafts (g.extend g.size []) := by
  have hlen := length_extend ((acyclic_iff_leads h).1 acyclic) (bounded_of_ofCrafts h)
  obtain ⟨rest, heq, hruns, -⟩ := exists_extend_eq (g := g) g.size []
  rw [heq, List.nil_append] at hlen ⊢
  exact hruns.schedule h hlen

/-- Crafts whose graph exists have an order exactly if none of them depends on itself through
others; the order is then the lexicographically least of all schedules. -/
theorem order_least_schedule {crafts : List Craft} {g : Graph} (h : ofCrafts crafts = .ok g) :
    ((∃ order, g.order = .ok order) ↔ Acyclic crafts) ∧
      ∀ order, g.order = .ok order →
        Schedule crafts order ∧
          ∀ other, Schedule crafts other → order = other ∨ List.Lex (· < ·) order other := by
  have bounded := bounded_of_ofCrafts h
  simp only [order_eq_ok bounded, ← acyclic_iff_leads h]
  refine ⟨⟨fun ⟨_, acyclic, _⟩ => acyclic, fun acyclic => ⟨_, acyclic, rfl⟩⟩, ?_⟩
  rintro _ ⟨acyclic, rfl⟩
  refine ⟨schedule_extend h acyclic, fun other hother => ?_⟩
  have hruns : g.Runs [] other := Schedule.runs h hother
  have hlen : other.length = g.size := by
    rw [hother.perm.length_eq, List.length_range, size_of_ofCrafts h]
  simpa [hlen] using hruns.extend_le

/-- One source, two crafts that need it, and one that needs both; listed from the end. -/
def diamond : List Craft :=
  [.plain 0 "report" ["left", "right"] [], .plain 1 "right" ["raw"] ["right"],
    .plain 2 "left" ["raw"] ["left"], .plain 3 "ingest" [] ["raw"]]

theorem order_least_schedule_diamond :
    ∃ g, ofCrafts diamond = .ok g ∧ g.order = .ok [3, 1, 2, 0] ∧ Acyclic diamond ∧
      Schedule diamond [3, 1, 2, 0] ∧
      ∀ other, Schedule diamond other →
        [3, 1, 2, 0] = other ∨ List.Lex (· < ·) [3, 1, 2, 0] other :=
  ⟨_, rfl, rfl, (order_least_schedule rfl).1.1 ⟨_, rfl⟩, (order_least_schedule rfl).2 _ rfl⟩

end ArtifactFlow.Graph
