import ArtifactFlow.Proofs.Run.Effects

/-!
What a craft looks at: the artifacts and volatiles that it requires, and whether the volatiles that
it makes are there. States that are alike in these are alike in what a call does to them.
-/

namespace ArtifactFlow

/-- Two states hold the same in all that a craft looks at. -/
structure Craft.Alike (craft : Craft) (catalog : Catalog) (args : Mapping) (v w : Visible) :
    Prop where
  artifacts : ∀ r ∈ craft.contract.required, r.kind = .artifact →
    ∀ l, catalog.location? r.name args = some l → v.stored l = w.stored l
  volatiles : ∀ r ∈ craft.contract.required, r.kind = .volatile →
    v.volatile? r.name = w.volatile? r.name
  made : ∀ name, ⟨name, .volatile⟩ ∈ craft.contract.produced →
    v.volatile? name = w.volatile? name

theorem Craft.Alike.of_eq {craft : Craft} {catalog : Catalog} {args : Mapping} {v w : Visible}
    (h : v = w) : craft.Alike catalog args v w := by
  subst h
  exact ⟨fun _ _ _ _ _ => rfl, fun _ _ _ => rfl, fun _ _ => rfl⟩

theorem Contract.mem_productionsOf {c : Contract} {kind : OutputKind} {name : String} :
    name ∈ c.productionsOf kind ↔ ⟨name, kind⟩ ∈ c.produced := by
  simp only [productionsOf, List.mem_map, List.mem_filter, decide_eq_true_eq]
  constructor
  · rintro ⟨p, ⟨hp, rfl⟩, rfl⟩
    exact hp
  · intro h
    exact ⟨_, ⟨h, rfl⟩, rfl⟩

theorem Context.checkFree_congr {c d : Context} {name : String}
    (h : c.volatile? name = d.volatile? name) (craft : String) :
    c.checkFree craft name = d.checkFree craft name := by
  rw [volatile?, volatile?] at h
  rw [checkFree, checkFree, Fields.contains, Fields.contains, h]

namespace Craft

variable {craft : Craft} {catalog : Catalog} {context : Context} {args : Mapping} {s t : RunState}

theorem input_congr (files : catalog.FileAdapters)
    (alike : craft.Alike catalog args s.visible t.visible) {r : Requirement}
    (hr : r ∈ craft.contract.required) :
    craft.input catalog s.context s.store args r =
      craft.input catalog t.context t.store args r := by
  rw [input, input]
  cases hkind : r.kind with
  | artifact => rw [Catalog.load_congr files (alike.artifacts r hr hkind)]
  | volatile =>
      have h : s.context.volatile? r.name = t.context.volatile? r.name :=
        alike.volatiles r hr hkind
      rw [h]
  | param => rfl

/-- All that comes before the outputs of a call. -/
theorem compute_congr (files : catalog.FileAdapters)
    (alike : craft.Alike catalog args s.visible t.visible) :
    craft.compute catalog s.context s.store args =
      craft.compute catalog t.context t.store args := by
  have hinputs : craft.inputs catalog s.context s.store args =
      craft.inputs catalog t.context t.store args :=
    foldlM_congr fun acc r hr => by rw [input_congr files alike hr]
  have hfree : craft.checkVolatiles s.context = craft.checkVolatiles t.context :=
    forM_congr fun name hname =>
      Context.checkFree_congr (alike.made name (Contract.mem_productionsOf.1 hname)) craft.name
  rw [compute, compute, hinputs, hfree]

theorem free_of_compute {store : Store} {outputs : Mapping}
    (h : craft.compute catalog context store args = .ok outputs) {name : String}
    (hname : ⟨name, .volatile⟩ ∈ craft.contract.produced) : context.volatile? name = none := by
  obtain ⟨_, -, h⟩ := bind_eq_ok.1 h
  obtain ⟨_, -, h⟩ := bind_eq_ok.1 h
  obtain ⟨_, hfree, -⟩ := bind_eq_ok.1 h
  exact Context.checkFree_eq_ok.1
    (forM_eq_ok.1 hfree name (Contract.mem_productionsOf.2 hname))

theorem namespaceFor_within (within : s.Within context) (overrides : Mapping) :
    craft.namespaceFor s.context overrides = craft.namespaceFor context overrides := by
  simp only [namespaceFor, Context.block?, within.shared, within.blocks]

/-- A call from any state that looks like `s` to the craft fails, or delivers what is planned. -/
structure Plan (craft : Craft) (catalog : Catalog) (context : Context) (s : RunState)
    (plan : Option (List Delivery)) : Prop where
  meets : ∀ ds ∈ plan, ∀ d ∈ ds,
    d.Meets catalog (craft.namespaceFor context []) craft.contract.produced
  follows : ∀ t : RunState, t.Within context →
    craft.Alike catalog (craft.namespaceFor context []) s.visible t.visible →
    Follows context plan t (Run.exec (craft.perform catalog []) t)

theorem exists_plan (files : catalog.FileAdapters) (hnodup : craft.contract.producedNames.Nodup)
    (memory : ∀ name, ⟨name, .artifact⟩ ∈ craft.contract.produced →
      ∀ l, catalog.location? name (craft.namespaceFor context []) = some l →
        l.scheme = "memory") (s : RunState) : ∃ plan, craft.Plan catalog context s plan := by
  cases hcompute : craft.compute catalog s.context s.store (craft.namespaceFor context []) with
  | error e =>
      refine ⟨none, by simp, ?_⟩
      intro t ht alike
      rw [exec_perform, namespaceFor_within ht, ← compute_congr files alike, hcompute]
      rfl
  | ok outputs =>
      obtain ⟨plan, hplan, hrun⟩ := deliverAll_plan craft context files _ outputs hnodup memory
      refine ⟨plan, hplan, ?_⟩
      intro t ht alike
      have hsame := compute_congr files alike
      rw [hcompute] at hsame
      rw [exec_perform, namespaceFor_within ht, ← hsame]
      exact hrun t ht fun name hname => free_of_compute hsame.symm hname

/-- What can be seen after a call is what was planned. -/
theorem Plan.after? {plan : Option (List Delivery)} (h : craft.Plan catalog context s plan)
    (within : t.Within context)
    (alike : craft.Alike catalog (craft.namespaceFor context []) s.visible t.visible) :
    (∀ u, craft.after? catalog t = some u → u.Within context) ∧
      (craft.after? catalog t).map RunState.visible = plan.map t.visible.deliverAll := by
  have hfollows := h.follows t within alike
  rw [Craft.after?, Run.completed?]
  rcases hexec : Run.exec (craft.perform catalog []) t with ⟨e | _, u⟩
  · rw [hexec] at hfollows
    obtain rfl : plan = none := hfollows
    simp
  · rw [hexec] at hfollows
    obtain ⟨hu, ds, rfl, hvisible⟩ := hfollows
    simp [hu, hvisible]

end Craft
end ArtifactFlow
