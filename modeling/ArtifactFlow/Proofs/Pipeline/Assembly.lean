import ArtifactFlow.Pipeline.Basic
import ArtifactFlow.Proofs.Graph.Schedule
import Mathlib.Data.List.Nodup

/-!
When crafts make a pipeline, and which one. Whether they do depends on the crafts alone and not on
their order or on repetitions; the pipeline holds each of them once and runs producers first.
-/

namespace ArtifactFlow

/-- An identity stands for one craft. -/
def Craft.Identified (crafts : List Craft) : Prop :=
  ∀ c ∈ crafts, ∀ d ∈ crafts, c.id = d.id → c = d

theorem Craft.Identified.mono {crafts others : List Craft} (h : Craft.Identified crafts)
    (hsub : others ⊆ crafts) : Craft.Identified others :=
  fun c hc d hd => h c (hsub hc) d (hsub hd)

theorem Craft.identified_of_nodup {crafts : List Craft} (h : (crafts.map (·.id)).Nodup) :
    Craft.Identified crafts :=
  fun _ hc _ hd => List.inj_on_of_nodup_map h hc hd

/-- The first of two different crafts among others makes a name that the second one needs. -/
def Craft.FeedsAmong (crafts : List Craft) (p c : Craft) : Prop :=
  p ∈ crafts ∧ c ∈ crafts ∧ p ≠ c ∧ p.Supplies c

/-- Crafts that fit together. -/
structure Composable (crafts : List Craft) : Prop where
  one_name : ∀ c ∈ crafts, ∀ d ∈ crafts, c.name = d.name → c = d
  made_once : ∀ c ∈ crafts, c.contract.producedNames.Nodup
  one_producer : ∀ c ∈ crafts, ∀ d ∈ crafts, ∀ name ∈ c.contract.producedNames,
    name ∈ d.contract.producedNames → c = d
  acyclic : ∀ c, ¬ Relation.TransGen (Craft.FeedsAmong crafts) c c

namespace Graph

theorem feeds_iff_feedsAmong {crafts : List Craft} (hnodup : crafts.Nodup) {i j : Nat}
    {p c : Craft} (hp : crafts[i]? = some p) (hc : crafts[j]? = some c) :
    Feeds crafts i j ↔ Craft.FeedsAmong crafts p c := by
  have hne : i ≠ j ↔ p ≠ c := by
    apply not_congr
    constructor
    · intro h
      exact Option.some.inj (by rw [← hp, ← hc, h])
    · intro h
      exact (List.getElem?_inj (List.getElem?_eq_some_iff.1 hp).1 hnodup).1 (by rw [hp, hc, h])
  simp [Feeds, Craft.FeedsAmong, hp, hc, hne, List.mem_of_getElem? hp, List.mem_of_getElem? hc]

theorem transGen_feedsAmong {crafts : List Craft} (hnodup : crafts.Nodup) {i j : Nat}
    (h : Relation.TransGen (Feeds crafts) i j) {p : Craft} (hp : crafts[i]? = some p) :
    ∃ c, crafts[j]? = some c ∧ Relation.TransGen (Craft.FeedsAmong crafts) p c := by
  induction h with
  | single h =>
      obtain ⟨-, _, c, -, hc, -⟩ := id h
      exact ⟨c, hc, .single ((feeds_iff_feedsAmong hnodup hp hc).1 h)⟩
  | tail _ h ih =>
      obtain ⟨m, hm, hpm⟩ := ih
      obtain ⟨-, _, c, -, hc, -⟩ := id h
      exact ⟨c, hc, hpm.tail ((feeds_iff_feedsAmong hnodup hm hc).1 h)⟩

theorem transGen_feeds {crafts : List Craft} (hnodup : crafts.Nodup) {i : Nat} {p c : Craft}
    (h : Relation.TransGen (Craft.FeedsAmong crafts) p c) (hp : crafts[i]? = some p) :
    ∃ j, crafts[j]? = some c ∧ Relation.TransGen (Feeds crafts) i j := by
  induction h with
  | single h =>
      obtain ⟨j, hj⟩ := List.mem_iff_getElem?.1 h.2.1
      exact ⟨j, hj, .single ((feeds_iff_feedsAmong hnodup hp hj).2 h)⟩
  | tail _ h ih =>
      obtain ⟨k, hk, hik⟩ := ih
      obtain ⟨j, hj⟩ := List.mem_iff_getElem?.1 h.2.1
      exact ⟨j, hj, hik.tail ((feeds_iff_feedsAmong hnodup hk hj).2 h)⟩

/-- Cycles do not depend on where the crafts stand. -/
theorem acyclic_iff_feedsAmong {crafts : List Craft} (hnodup : crafts.Nodup) :
    Acyclic crafts ↔ ∀ c, ¬ Relation.TransGen (Craft.FeedsAmong crafts) c c := by
  constructor
  · intro acyclic c cycle
    obtain ⟨d, hcd, -⟩ := Relation.TransGen.head'_iff.1 cycle
    obtain ⟨i, hi⟩ := List.mem_iff_getElem?.1 hcd.1
    obtain ⟨j, hj, hij⟩ := transGen_feeds hnodup cycle hi
    obtain rfl : i = j :=
      (List.getElem?_inj (List.getElem?_eq_some_iff.1 hi).1 hnodup).1 (hi.trans hj.symm)
    exact acyclic i hij
  · intro acyclic i cycle
    obtain ⟨j, ⟨-, p, -, hp, -⟩, -⟩ := Relation.TransGen.head'_iff.1 cycle
    obtain ⟨c, hc, hpc⟩ := transGen_feedsAmong hnodup cycle hp
    obtain rfl : p = c := Option.some.inj (hp.symm.trans hc)
    exact acyclic p hpc

theorem nodup_madeNames {crafts : List Craft} (hnodup : crafts.Nodup) :
    (madeNames crafts).Nodup ↔ (∀ c ∈ crafts, c.contract.producedNames.Nodup) ∧
      ∀ c ∈ crafts, ∀ d ∈ crafts, ∀ name ∈ c.contract.producedNames,
        name ∈ d.contract.producedNames → c = d := by
  rw [madeNames, List.nodup_flatMap]
  apply and_congr_right
  intro _
  constructor
  · intro h c hc d hd name hname hname'
    by_contra hne
    have : Std.Symm (Function.onFun List.Disjoint fun c : Craft => c.contract.producedNames) :=
      ⟨fun _ _ h => h.symm⟩
    exact h.forall hc hd hne hname hname'
  · intro h
    apply hnodup.pairwise_of_forall_ne
    intro c hc d hd hne name hname hname'
    exact hne (h c hc d hd name hname hname')

end Graph

namespace Pipeline

theorem addCraft_eq_ok {kept after : List Craft} {c : Craft} (hnames : (kept.map (·.name)).Nodup)
    (identified : Craft.Identified (c :: kept)) : addCraft kept c = .ok after ↔
      (c ∈ kept ∧ after = kept) ∨ (c.name ∉ kept.map (·.name) ∧ after = kept ++ [c]) := by
  rw [addCraft]
  cases hfind : kept.find? (·.name = c.name) with
  | none =>
      have hnew : c.name ∉ kept.map (·.name) := by
        simpa using hfind
      have hc : c ∉ kept := fun h => hnew (List.mem_map_of_mem h)
      simp [hnew, hc, eq_comm]
  | some present =>
      have hmem := List.mem_of_find?_eq_some hfind
      have hname : present.name = c.name := by simpa using List.find?_some hfind
      have hold : c.name ∈ kept.map (·.name) := List.mem_map.2 ⟨present, hmem, hname⟩
      have hid : present.id = c.id ↔ c ∈ kept := by
        constructor
        · intro h
          rwa [identified c List.mem_cons_self present (List.mem_cons_of_mem _ hmem) h.symm]
        · intro hc
          rw [List.inj_on_of_nodup_map hnames hmem hc hname]
      simp only [hid, hold, not_true_eq_false, false_and, or_false]
      by_cases hc : c ∈ kept
      · simp [hid.2 hc, hc, eq_comm]
      · simp [hid.not.2 hc, hc]

theorem nodup_names_snoc {kept : List Craft} {c : Craft} (hnames : (kept.map (·.name)).Nodup)
    (hnew : c.name ∉ kept.map (·.name)) : ((kept ++ [c]).map (·.name)).Nodup := by
  rw [List.map_append, List.map_singleton, ← List.concat_eq_append]
  exact hnames.concat hnew

theorem foldlM_addCraft (kept : List Craft) {crafts after : List Craft}
    (hnames : (kept.map (·.name)).Nodup) (identified : Craft.Identified (kept ++ crafts))
    (h : crafts.foldlM addCraft kept = .ok after) :
    (after.map (·.name)).Nodup ∧ ∀ c, c ∈ after ↔ c ∈ kept ∨ c ∈ crafts := by
  induction crafts generalizing kept with
  | nil =>
      cases h
      simpa using hnames
  | cons c crafts ih =>
      obtain ⟨mid, hmid, hrest⟩ := bind_eq_ok.1 h
      have hc : Craft.Identified (c :: kept) := identified.mono (by grind)
      rcases (addCraft_eq_ok hnames hc).1 hmid with ⟨hold, rfl⟩ | ⟨hnew, rfl⟩
      · obtain ⟨hafter, hall⟩ := ih _ hnames (identified.mono (by grind)) hrest
        refine ⟨hafter, fun d => ?_⟩
        rw [hall]
        grind
      · have hsnoc := nodup_names_snoc hnames hnew
        obtain ⟨hafter, hall⟩ := ih _ hsnoc (identified.mono (by grind)) hrest
        refine ⟨hafter, fun d => ?_⟩
        rw [hall]
        grind

theorem exists_foldlM_addCraft (kept : List Craft) {crafts : List Craft}
    (hnames : (kept.map (·.name)).Nodup) (identified : Craft.Identified (kept ++ crafts))
    (one_name : ∀ c ∈ kept ++ crafts, ∀ d ∈ kept ++ crafts, c.name = d.name → c = d) :
    ∃ after, crafts.foldlM addCraft kept = .ok after := by
  induction crafts generalizing kept with
  | nil => exact ⟨kept, rfl⟩
  | cons c crafts ih =>
      have hc : Craft.Identified (c :: kept) := identified.mono (by grind)
      by_cases hold : c ∈ kept
      · have hstep : addCraft kept c = .ok kept := (addCraft_eq_ok hnames hc).2 (.inl ⟨hold, rfl⟩)
        obtain ⟨after, hafter⟩ := ih kept hnames (identified.mono (by grind))
          fun a ha b hb => one_name a (by grind) b (by grind)
        exact ⟨after, bind_eq_ok.2 ⟨kept, hstep, hafter⟩⟩
      · have hnew : c.name ∉ kept.map (·.name) := by
          intro hmem
          obtain ⟨d, hd, hname⟩ := List.mem_map.1 hmem
          exact hold (one_name d (by grind) c (by grind) hname ▸ hd)
        have hstep : addCraft kept c = .ok (kept ++ [c]) :=
          (addCraft_eq_ok hnames hc).2 (.inr ⟨hnew, rfl⟩)
        obtain ⟨after, hafter⟩ := ih (kept ++ [c]) (nodup_names_snoc hnames hnew)
          (identified.mono (by grind)) fun a ha b hb => one_name a (by grind) b (by grind)
        exact ⟨after, bind_eq_ok.2 ⟨kept ++ [c], hstep, hafter⟩⟩

/-- A pipeline whose crafts have distinct names and whose order is the one of its graph. -/
structure WellOrdered (p : Pipeline) : Prop where
  names_nodup : (p.crafts.map (·.name)).Nodup
  order_eq : ∃ g, p.graph = .ok g ∧ g.order = .ok p.order

theorem assemble_eq_ok {name : String} {crafts : List Craft} {hooks : List Hook} {p : Pipeline} :
    assemble name crafts hooks = .ok p ↔ ∃ kept g order, crafts.foldlM addCraft [] = .ok kept ∧
      Graph.ofCrafts kept = .ok g ∧ g.order = .ok order ∧ p = ⟨name, kept, order, hooks⟩ := by
  simp only [assemble, bind_eq_ok, pure_eq_ok, Except.ok.injEq]
  constructor
  · rintro ⟨kept, hkept, g, hg, order, horder, rfl⟩
    exact ⟨kept, g, order, hkept, hg, horder, rfl⟩
  · rintro ⟨kept, g, order, hkept, hg, horder, rfl⟩
    exact ⟨kept, hkept, g, hg, order, horder, rfl⟩

/-- Assembly fails for a clash of names, for a name that is made twice, or for a cycle. -/
theorem error_of_assemble {name : String} {crafts : List Craft} {hooks : List Hook} {e : Fault}
    (h : assemble name crafts hooks = .error e) : crafts.foldlM addCraft [] = .error e ∨
      (∃ made first second, e = .ambiguousProducer made first second) ∨
      ∃ cycle, e = .cyclicDependency cycle := by
  cases bind_eq_error.1 h with
  | inl hcrafts => exact .inl hcrafts
  | inr hrest =>
      obtain ⟨kept, -, hrest⟩ := hrest
      cases bind_eq_error.1 hrest with
      | inl hgraph => exact .inr (.inl (Graph.error_of_ofCrafts hgraph))
      | inr hrest =>
          obtain ⟨g, -, hrest⟩ := hrest
          cases bind_eq_error.1 hrest with
          | inl horder => exact .inr (.inr (Graph.error_of_order horder))
          | inr hrest =>
              obtain ⟨_, -, hrest⟩ := hrest
              exact absurd hrest (by simp)

/-- Crafts of distinct names do not clash. -/
theorem assemble_ne_duplicateCraft {name : String} {crafts : List Craft} {hooks : List Hook}
    (identified : Craft.Identified crafts)
    (one_name : ∀ c ∈ crafts, ∀ d ∈ crafts, c.name = d.name → c = d) (clash : String) :
    assemble name crafts hooks ≠ .error (.duplicateCraft clash) := by
  intro h
  obtain ⟨kept, hkept⟩ := exists_foldlM_addCraft [] List.nodup_nil identified one_name
  cases error_of_assemble h with
  | inl hcrafts => exact absurd (hkept.symm.trans hcrafts) (by simp)
  | inr hrest => simp at hrest

/-- What is assembled holds the given crafts and nothing else. -/
theorem assemble_spec {name : String} {crafts : List Craft} {hooks : List Hook} {p : Pipeline}
    (identified : Craft.Identified crafts) (h : assemble name crafts hooks = .ok p) :
    p.WellOrdered ∧ p.name = name ∧ p.hooks = hooks ∧ ∀ c, c ∈ p.crafts ↔ c ∈ crafts := by
  obtain ⟨kept, g, order, hkept, hg, horder, rfl⟩ := assemble_eq_ok.1 h
  obtain ⟨hnames, hall⟩ := foldlM_addCraft [] List.nodup_nil identified hkept
  exact ⟨⟨hnames, g, hg, horder⟩, rfl, rfl, fun c => by simp [hall]⟩

theorem WellOrdered.nodup {p : Pipeline} (h : p.WellOrdered) : p.crafts.Nodup :=
  h.names_nodup.of_map _

theorem WellOrdered.one_name {p : Pipeline} (h : p.WellOrdered) :
    ∀ c ∈ p.crafts, ∀ d ∈ p.crafts, c.name = d.name → c = d :=
  fun _ hc _ hd => List.inj_on_of_nodup_map h.names_nodup hc hd

theorem WellOrdered.composable {p : Pipeline} (h : p.WellOrdered) : Composable p.crafts := by
  obtain ⟨g, hg, horder⟩ := h.order_eq
  obtain ⟨hmade, -⟩ := Graph.ofCrafts_eq_ok.1 hg
  obtain ⟨made_once, one_producer⟩ := (Graph.nodup_madeNames h.nodup).1 hmade
  have acyclic := ((Graph.order_eq_ok (Graph.bounded_of_ofCrafts hg)).1 horder).1
  rw [← Graph.acyclic_iff_leads hg, Graph.acyclic_iff_feedsAmong h.nodup] at acyclic
  exact ⟨h.one_name, made_once, one_producer, acyclic⟩

theorem WellOrdered.schedule {p : Pipeline} (h : p.WellOrdered) :
    Graph.Schedule p.crafts p.order := by
  obtain ⟨g, hg, horder⟩ := h.order_eq
  obtain ⟨acyclic, heq⟩ := (Graph.order_eq_ok (Graph.bounded_of_ofCrafts hg)).1 horder
  rw [heq]
  exact Graph.schedule_extend hg ((Graph.acyclic_iff_leads hg).2 acyclic)

theorem filterMap_getElem?_range {α : Type u} (l : List α) :
    (List.range l.length).filterMap (l[·]?) = l := by
  induction l with
  | nil => rfl
  | cons a l ih =>
      rw [List.length_cons, List.range_succ_eq_map]
      simpa [List.filterMap_map, Function.comp_def] using ih

theorem WellOrdered.ordered_perm {p : Pipeline} (h : p.WellOrdered) :
    p.ordered.Perm p.crafts := by
  have := h.schedule.perm.filterMap (p.crafts[·]?)
  rwa [filterMap_getElem?_range] at this

/-- Crafts run after those that make something for them. -/
theorem WellOrdered.ordered_pairwise {p : Pipeline} (h : p.WellOrdered) :
    p.ordered.Pairwise fun earlier later => ¬ later.Supplies earlier := by
  refine List.pairwise_filterMap.2 (h.schedule.pairwise.imp ?_)
  rintro i j ⟨hne, hfeeds⟩ earlier hi later hj hsupplies
  exact hfeeds ⟨hne.symm, later, earlier, hj, hi, hsupplies⟩

end Pipeline

/-- Crafts that fit together still do when some are left out. -/
theorem Composable.mono {crafts others : List Craft} (h : Composable crafts)
    (hsub : others ⊆ crafts) : Composable others where
  one_name c hc d hd := h.one_name c (hsub hc) d (hsub hd)
  made_once c hc := h.made_once c (hsub hc)
  one_producer c hc d hd := h.one_producer c (hsub hc) d (hsub hd)
  acyclic c cycle := by
    have hfeeds : Craft.FeedsAmong others ≤ Craft.FeedsAmong crafts :=
      fun _ _ ⟨hp, hd, hne, hsupplies⟩ => ⟨hsub hp, hsub hd, hne, hsupplies⟩
    exact h.acyclic c (Relation.TransGen.mono hfeeds c c cycle)

/-- To fit together is a matter of which crafts there are. -/
theorem Composable.congr {crafts others : List Craft} (h : Composable crafts)
    (hall : ∀ c, c ∈ others ↔ c ∈ crafts) : Composable others :=
  h.mono fun c hc => (hall c).1 hc

namespace Pipeline

/-- Crafts make a pipeline exactly if they fit together. -/
theorem exists_assemble_iff {name : String} {crafts : List Craft} {hooks : List Hook}
    (identified : Craft.Identified crafts) :
    (∃ p, assemble name crafts hooks = .ok p) ↔ Composable crafts := by
  constructor
  · rintro ⟨p, hp⟩
    obtain ⟨ordered, -, -, hall⟩ := assemble_spec identified hp
    exact ordered.composable.congr fun c => (hall c).symm
  · intro h
    obtain ⟨kept, hkept⟩ :=
      exists_foldlM_addCraft [] List.nodup_nil identified h.one_name
    obtain ⟨hnames, hall⟩ := foldlM_addCraft [] List.nodup_nil identified hkept
    have hnodup : kept.Nodup := hnames.of_map _
    have fits : Composable kept := h.congr fun c => by simp [hall]
    obtain ⟨g, hg⟩ : ∃ g, Graph.ofCrafts kept = .ok g :=
      ⟨_, Graph.ofCrafts_eq_ok.2 ⟨(Graph.nodup_madeNames hnodup).2
        ⟨fits.made_once, fits.one_producer⟩, rfl⟩⟩
    have acyclic := (Graph.acyclic_iff_feedsAmong hnodup).2 fits.acyclic
    have horder := (Graph.order_eq_ok (Graph.bounded_of_ofCrafts hg)).2
      ⟨(Graph.acyclic_iff_leads hg).1 acyclic, rfl⟩
    exact ⟨_, assemble_eq_ok.2 ⟨kept, g, _, hkept, hg, horder, rfl⟩⟩

end Pipeline
end ArtifactFlow
