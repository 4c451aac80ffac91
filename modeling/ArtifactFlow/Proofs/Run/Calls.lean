import ArtifactFlow.Proofs.Names
import ArtifactFlow.Proofs.Run.Hooks
import ArtifactFlow.Proofs.Run.Locality

/-!
A single call of a craft that ends well: with what its function is called, and what the call leaves
behind.
-/

namespace ArtifactFlow

/-- Saving payloads one after another succeeds, and takes one store to another. -/
def Catalog.Saves (c : Catalog) : List Saving → Store → Store → Prop
  | [], s, t => s = t
  | x :: rest, s, u => ∃ t, c.save x.name x.payload x.args s = (.ok (), t) ∧ c.Saves rest t u

theorem Catalog.saves_append {c : Catalog} {first second : List Saving} {s u : Store} :
    c.Saves (first ++ second) s u ↔ ∃ t, c.Saves first s t ∧ c.Saves second t u := by
  induction first generalizing s with
  | nil => simp [Saves]
  | cons x first ih =>
      simp only [List.cons_append, Saves, ih]
      constructor
      · rintro ⟨t, hx, v, hfirst, hsecond⟩
        exact ⟨v, ⟨t, hx, hfirst⟩, hsecond⟩
      · rintro ⟨v, ⟨t, hx, hfirst⟩, hsecond⟩
        exact ⟨t, hx, v, hfirst, hsecond⟩

/-- The run goes from one state to another by keeping volatiles and saving payloads in this order,
and does nothing else. -/
structure RunState.Moves (catalog : Catalog) (kept : Mapping) (saved : List Saving)
    (s t : RunState) : Prop where
  shared : t.context.shared = s.context.shared
  blocks : t.context.blocks = s.context.blocks
  volatiles : t.context.volatiles = s.context.volatiles ++ kept
  artifacts : (s.context.artifacts ++ saved.map (·.name)).Nodup →
    t.context.artifacts = s.context.artifacts ++ saved.map (·.name)
  saves : catalog.Saves saved s.store t.store

namespace RunState.Moves

variable {catalog : Catalog} {kept more : Mapping} {saved others : List Saving}
  {s t u : RunState}

theorem of_unchanged (hcontext : t.context = s.context) (hstore : t.store = s.store) :
    Moves catalog [] [] s t := by
  refine ⟨by rw [hcontext], by rw [hcontext], ?_, fun _ => ?_, hstore.symm⟩
  · rw [hcontext, List.append_nil]
  · rw [hcontext, List.map_nil, List.append_nil]

theorem trans (first : Moves catalog kept saved s t) (second : Moves catalog more others t u) :
    Moves catalog (kept ++ more) (saved ++ others) s u where
  shared := second.shared.trans first.shared
  blocks := second.blocks.trans first.blocks
  volatiles := by rw [second.volatiles, first.volatiles, List.append_assoc]
  artifacts hnodup := by
    rw [List.map_append, ← List.append_assoc] at hnodup
    have hfirst := first.artifacts (hnodup.sublist (List.sublist_append_left _ _))
    rw [second.artifacts (by rwa [hfirst]), hfirst, List.map_append, List.append_assoc]
  saves := Catalog.saves_append.2 ⟨t.store, first.saves, second.saves⟩

end RunState.Moves

/-- There is an output for every production. -/
def Production.Present (outputs : Mapping) (ps : List Production) : Prop :=
  ∀ p ∈ ps, ∃ value, Fields.get? p.name outputs = some value

/-- The outputs of a kind, by name, in the order of declaration. -/
def Production.delivered (kind : OutputKind) (outputs : Mapping) (ps : List Production) :
    Mapping :=
  ps.filterMap fun p =>
    if p.kind = kind then (Fields.get? p.name outputs).map (p.name, ·) else none

/-- The artifacts among outputs, with the arguments that they are saved with. -/
def Production.savings (args outputs : Mapping) (ps : List Production) : List Saving :=
  (delivered .artifact outputs ps).map fun (name, payload) => ⟨name, payload, args⟩

namespace Production

variable {kind : OutputKind} {outputs : Mapping} {ps : List Production} {name : String}

theorem delivered_cons (kind : OutputKind) (outputs : Mapping) (p : Production)
    (ps : List Production) : delivered kind outputs (p :: ps) =
      delivered kind outputs [p] ++ delivered kind outputs ps := by
  simp only [delivered, ← List.filterMap_append, List.singleton_append]

theorem mem_delivered_iff {value : Value} : (name, value) ∈ delivered kind outputs ps ↔
    ⟨name, kind⟩ ∈ ps ∧ Fields.get? name outputs = some value := by
  simp only [delivered, List.mem_filterMap, Option.ite_none_right_eq_some, Option.map_eq_some_iff,
    Prod.mk.injEq]
  constructor
  · rintro ⟨p, hp, rfl, _, hvalue, rfl, rfl⟩
    exact ⟨hp, hvalue⟩
  · rintro ⟨hp, hvalue⟩
    exact ⟨_, hp, rfl, value, hvalue, rfl, rfl⟩

theorem keys_delivered (present : Present outputs ps) :
    Fields.keys (delivered kind outputs ps) = (ps.filter (·.kind = kind)).map (·.name) := by
  induction ps with
  | nil => rfl
  | cons p ps ih =>
      obtain ⟨⟨value, hvalue⟩, present⟩ := List.forall_mem_cons.1 present
      have ih := ih present
      rw [Fields.keys] at ih ⊢
      rw [delivered_cons, List.map_append, ih]
      by_cases hkind : p.kind = kind
      · simp [delivered, hkind, hvalue]
      · simp [delivered, hkind]

end Production

theorem Context.insertVolatile_eq_ok {c d : Context} {craft name : String} {value : Value}
    (h : c.insertVolatile craft name value = .ok d) :
    d = { c with volatiles := c.volatiles ++ [(name, value)] } := by
  obtain ⟨⟨⟩, hfree, h⟩ := bind_eq_ok.1 h
  rw [← Except.ok.inj h, Fields.insert_of_get?_eq_none (checkFree_eq_ok.1 hfree)]

theorem Context.recordArtifact_of_notMem {c : Context} {name : String} (h : name ∉ c.artifacts) :
    c.recordArtifact name = { c with artifacts := c.artifacts ++ [name] } := by
  simp [recordArtifact, h]

namespace Craft

variable {craft : Craft} {catalog : Catalog} {args outputs : Mapping} {s t : RunState}

theorem moves_deliver {p : Production} {value : Value}
    (hvalue : Fields.get? p.name outputs = some value)
    (h : Run.exec (craft.deliver catalog args outputs p) s = (.ok (), t)) :
    s.Moves catalog (Production.delivered .volatile outputs [p])
      (Production.savings args outputs [p]) t := by
  obtain ⟨name, kind⟩ := p
  cases kind with
  | artifact =>
      rw [exec_deliver_artifact, hvalue] at h
      rcases hsave : catalog.save name value args s.store with ⟨e | ⟨⟩, store⟩
      · simp [hsave] at h
      · simp only [Option.getD_some, hsave] at h
        cases h
        have hkept : Production.delivered .volatile outputs [⟨name, .artifact⟩] = [] := rfl
        have hsaved : Production.savings args outputs [⟨name, .artifact⟩] =
            [⟨name, value, args⟩] := by
          simp [Production.savings, Production.delivered, hvalue]
        rw [hkept, hsaved]
        refine ⟨?_, ?_, ?_, ?_, store, hsave, rfl⟩
        · rw [Context.recordArtifact_eq]
        · rw [Context.recordArtifact_eq]
        · rw [Context.recordArtifact_eq, List.append_nil]
        · intro hnodup
          have hnew : name ∉ s.context.artifacts := fun hmem =>
            List.disjoint_of_nodup_append hnodup hmem (List.mem_singleton.2 rfl)
          rw [Context.recordArtifact_of_notMem hnew]
          rfl
  | volatile =>
      rw [exec_deliver_volatile, hvalue] at h
      cases hinsert : s.context.insertVolatile craft.name name value with
      | error e => simp [hinsert] at h
      | ok context =>
          simp only [Option.getD_some, hinsert] at h
          cases h
          have hkept : Production.delivered .volatile outputs [⟨name, .volatile⟩] =
              [(name, value)] := by
            simp [Production.delivered, hvalue]
          have hsaved : Production.savings args outputs [⟨name, .volatile⟩] = [] := rfl
          rw [hkept, hsaved, Context.insertVolatile_eq_ok hinsert]
          exact ⟨rfl, rfl, rfl, fun _ => (List.append_nil _).symm, rfl⟩

/-- Outputs that are all delivered are delivered in the order of their declaration. -/
theorem moves_deliverAll {ps : List Production} (present : Production.Present outputs ps)
    (h : Run.exec (craft.deliverAll catalog args outputs ps) s = (.ok (), t)) :
    s.Moves catalog (Production.delivered .volatile outputs ps)
      (Production.savings args outputs ps) t := by
  induction ps generalizing s with
  | nil =>
      cases h
      exact .of_unchanged rfl rfl
  | cons p ps ih =>
      obtain ⟨⟨value, hvalue⟩, present⟩ := List.forall_mem_cons.1 present
      obtain ⟨⟨⟩, u, hfirst, hrest⟩ := Run.exec_bind_eq_ok.1 h
      have hmoves := (moves_deliver hvalue hfirst).trans (ih present hrest)
      rw [Production.savings, Production.delivered_cons .volatile,
        Production.delivered_cons .artifact, List.map_append]
      exact hmoves

theorem namesMissing_eq_nil {expected present : List String} :
    namesMissing expected present = [] ↔ expected ⊆ present := by
  simp only [List.eq_nil_iff_forall_not_mem, namesMissing, mem_sortedNames, List.mem_filter]
  simp [List.subset_def]

theorem mismatch?_eq_none {returned : List String} (h : craft.mismatch? returned = none) :
    craft.contract.producedNames ⊆ returned := by
  rw [← namesMissing_eq_nil]
  by_contra hne
  simp [mismatch?, hne] at h

/-- What the function of a craft returns is passed on if no declared output is missing. -/
theorem outputs_eq_ok {inputs : Inputs} (h : craft.outputs inputs = .ok outputs) :
    craft.body inputs = .ok outputs ∧ Production.Present outputs craft.contract.produced := by
  obtain ⟨returned, hbody, h⟩ := bind_eq_ok.1 h
  cases hmismatch : craft.mismatch? (Fields.keys returned) with
  | some e => simp [hmismatch] at h
  | none =>
      rw [hmismatch] at h
      obtain rfl := Except.ok.inj h
      refine ⟨mapError_eq_ok.1 hbody, fun p hp => ?_⟩
      exact Fields.mem_keys_iff.1 (mismatch?_eq_none hmismatch (List.mem_map_of_mem hp))

theorem compute_eq_ok {context : Context} {store : Store} :
    craft.compute catalog context store args = .ok outputs ↔
      ∃ inputs, craft.inputs catalog context store args = .ok inputs ∧
        craft.outputs inputs = .ok outputs ∧ craft.checkVolatiles context = .ok () := by
  simp only [compute, bind_eq_ok, pure_eq_ok, Except.ok.injEq]
  constructor
  · rintro ⟨inputs, hinputs, _, houtputs, ⟨⟩, hfree, rfl⟩
    exact ⟨inputs, hinputs, houtputs, hfree⟩
  · rintro ⟨inputs, hinputs, houtputs, hfree⟩
    exact ⟨inputs, hinputs, outputs, houtputs, ⟨⟩, hfree, rfl⟩

theorem invoke_eq_ok (h : Run.exec (craft.invoke catalog []) s = (.ok (), t)) :
    ∃ inputs outputs,
      craft.inputs catalog s.context s.store (craft.namespaceFor s.context []) = .ok inputs ∧
      craft.body inputs = .ok outputs ∧ Production.Present outputs craft.contract.produced ∧
      s.Moves catalog (Production.delivered .volatile outputs craft.contract.produced)
        (Production.savings (craft.namespaceFor s.context []) outputs craft.contract.produced)
        t := by
  obtain ⟨⟨⟩, u, hbefore, h⟩ := Run.exec_bind_eq_ok.1 h
  obtain ⟨⟨⟩, v, hperform, hafter⟩ := Run.exec_bind_eq_ok.1 h
  obtain ⟨hcontext, hstore⟩ := (Hook.watches_callBefore _ _).unchanged hbefore
  obtain ⟨hcontext', hstore'⟩ := (Hook.watches_callAfter _ _).unchanged hafter
  rw [Run.exec_told_eq_ok, exec_perform, hcontext, hstore] at hperform
  cases hcompute : craft.compute catalog s.context s.store (craft.namespaceFor s.context []) with
  | error e => simp [hcompute] at hperform
  | ok outputs =>
      rw [hcompute] at hperform
      obtain ⟨inputs, hinputs, houtputs, -⟩ := compute_eq_ok.1 hcompute
      obtain ⟨hbody, present⟩ := outputs_eq_ok houtputs
      have start : s.Moves catalog [] [] u := .of_unchanged hcontext hstore
      have finish : v.Moves catalog [] [] t := .of_unchanged hcontext' hstore'
      have hmoves := (start.trans (moves_deliverAll present hperform)).trans finish
      simp only [List.nil_append, List.append_nil] at hmoves
      exact ⟨inputs, outputs, hinputs, hbody, present, hmoves⟩

end Craft
end ArtifactFlow
