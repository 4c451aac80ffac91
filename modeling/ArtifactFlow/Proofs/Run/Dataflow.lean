import ArtifactFlow.Proofs.Run.Account
import ArtifactFlow.Proofs.Run.Arrival
import ArtifactFlow.Proofs.Run.Confluence

/-!
Volatiles pass from the craft that makes them to those that require them. When a run comes to a
craft, the producers of its requirements have been called already, and since a volatile is written
once the value that is found is the one that was returned.
-/

namespace ArtifactFlow

/-- Inputs that are gathered one after another hold the value of a name, if all requirements of
this name have the same one. -/
theorem Inputs.get?_of_foldlM {read : Requirement → Except Fault Value} {rs : List Requirement}
    {acc inputs : Inputs} {name : String} {value : Value}
    (h : rs.foldlM (fun acc r => do return acc.add r (← read r)) acc = .ok inputs)
    (hread : ∀ r ∈ rs, r.name = name → read r = .ok value)
    (hname : name ∈ rs.map (·.name) ∨ Fields.get? name acc.values = some value) :
    Fields.get? name inputs.values = some value := by
  induction rs generalizing acc with
  | nil =>
      obtain rfl := Except.ok.inj h
      simpa using hname
  | cons r rs ih =>
      obtain ⟨next, hnext, hrest⟩ := bind_eq_ok.1 h
      obtain ⟨v, hv, hadd⟩ := bind_eq_ok.1 hnext
      obtain rfl := Except.ok.inj hadd
      obtain ⟨hfirst, hread⟩ := List.forall_mem_cons.1 hread
      refine ih hrest hread ?_
      by_cases hr : r.name = name
      · obtain rfl := Except.ok.inj (hv.symm.trans (hfirst hr))
        exact .inr (by rw [Inputs.add, hr, Fields.get?_insert_self])
      · rcases hname with hmem | hfound
        · rw [List.map_cons, List.mem_cons] at hmem
          exact .inl (hmem.resolve_left (Ne.symm hr))
        · exact .inr (by rw [Inputs.add, Fields.get?_insert_of_ne hr, hfound])

theorem Craft.get_of_inputs {craft : Craft} {catalog : Catalog} {context : Context} {store : Store}
    {args : Mapping} {inputs : Inputs} {r : Requirement} {value : Value}
    (h : craft.inputs catalog context store args = .ok inputs) (hr : r ∈ craft.contract.required)
    (hinput : ∀ q ∈ craft.contract.required, q.name = r.name →
      craft.input catalog context store args q = .ok value) :
    inputs.get r.name = .ok value := by
  rw [Inputs.get, Inputs.get?_of_foldlM h hinput (.inl (List.mem_map_of_mem hr))]

theorem Craft.supplies_of_mem {craft producer : Craft} {r : Requirement} {kind : OutputKind}
    (hname : ⟨r.name, kind⟩ ∈ producer.contract.produced) (hr : r ∈ craft.contract.required)
    (hkind : r.kind ≠ .param) : producer.Supplies craft :=
  ⟨r.name, List.mem_map_of_mem hname, Graph.mem_needs hr hkind⟩

theorem Craft.input_volatile {craft : Craft} {catalog : Catalog} {context : Context}
    {store : Store} {args : Mapping} {r : Requirement} {value : Value} (hkind : r.kind = .volatile)
    (h : context.volatile? r.name = some value) :
    craft.input catalog context store args r = .ok value := by
  simp only [Craft.input, hkind, h]

namespace Pipeline

variable {p : Pipeline} {catalog : Catalog} {args : Mapping} {store : Store}
  {calls : List Call} {left : List Craft} {craft producer : Craft} {s : RunState}

/-- When a run comes to a craft, all others that make something for it have been called. -/
theorem Progress.exists_call (ordered : p.WellOrdered)
    (h : p.Progress catalog args store calls (craft :: left) s) (hproducer : producer ∈ p.crafts)
    (hne : producer ≠ craft) (hsupplies : producer.Supplies craft) :
    ∃ call ∈ calls, call.craft = producer := by
  have hpairwise := ordered.ordered_pairwise
  rw [h.ordered] at hpairwise
  rcases (h.mem_crafts_iff ordered).1 hproducer with hcalled | hleft
  · exact List.mem_map.1 hcalled
  · have hlater := (List.mem_cons.1 hleft).resolve_left hne
    have := List.rel_of_pairwise_cons (List.pairwise_append.1 hpairwise).2.1 hlater
    exact absurd hsupplies this

/-- A volatile that a craft requires and another craft of the pipeline makes: where the run goes on
with the craft, the other one has been called, and what it returned is what the function of the
craft is called with. -/
theorem Built.volatile_received (built : p.Built)
    (h : p.Progress catalog args store calls (craft :: left) s) {r : Requirement}
    (hr : r ∈ craft.contract.required)
    (once : ∀ q ∈ craft.contract.required, q.name = r.name → q.kind = .volatile)
    (hproducer : producer ∈ p.crafts) (hne : producer ≠ craft)
    (hname : ⟨r.name, .volatile⟩ ∈ producer.contract.produced) :
    p.run catalog args store = p.resume catalog (craft :: left) s ∧
    ∃ call ∈ calls, call.craft = producer ∧ producer.body call.inputs = .ok call.outputs ∧
      ∃ value, Fields.get? r.name call.outputs = some value ∧
        craft.input catalog s.context s.store (craft.namespaceFor s.context []) r = .ok value ∧
        ∀ inputs, craft.inputs catalog s.context s.store (craft.namespaceFor s.context []) =
          .ok inputs → inputs.get r.name = .ok value := by
  have ordered := built.wellOrdered
  have hsupplies := Craft.supplies_of_mem hname hr (by simp [once r hr rfl])
  obtain ⟨call, hcall, rfl⟩ := h.exists_call ordered hproducer hne hsupplies
  obtain ⟨context, start, -, -, course⟩ := h.course
  obtain ⟨value, houtput, hvolatile⟩ := h.volatile?_eq ordered hcall hname
  have hinput : ∀ q ∈ craft.contract.required, q.name = r.name →
      craft.input catalog s.context s.store (craft.namespaceFor s.context []) q = .ok value := by
    intro q hq heq
    exact Craft.input_volatile (once q hq heq) (by rw [heq, hvolatile])
  exact ⟨h.run_eq, call, hcall, rfl, course.returned call hcall, value, houtput, hinput r hr rfl,
    fun inputs hinputs => Craft.get_of_inputs hinputs hr hinput⟩

end Pipeline

namespace Bakery

/-- The run comes to its second craft. -/
theorem exists_progress : ∃ calls s, pipeline.Progress catalog [] store calls [oven] s := by
  have ordered := (Pipeline.Built.ofCrafts ofCrafts_eq).wellOrdered
  obtain ⟨calls, account⟩ := ordered.account result_eq
  obtain ⟨s, progress⟩ := account.progress
  have hordered : [mill, oven] = calls.map (·.craft) ++ [] := progress.ordered
  rw [List.append_nil] at hordered
  obtain ⟨first, rest, rfl, -, hrest⟩ := List.map_eq_cons_iff.1 hordered.symm
  obtain ⟨second, _, rfl, hsecond, hnone⟩ := List.map_eq_cons_iff.1 hrest
  obtain rfl := List.map_eq_nil_iff.1 hnone
  have hsplit : first :: [second] = [first] ++ second :: [] := rfl
  rw [hsplit] at progress
  obtain ⟨t, hbefore, -⟩ := progress.before
  rw [hsecond] at hbefore
  exact ⟨_, t, hbefore⟩

end Bakery

open Bakery in
theorem Pipeline.Built.volatile_received_bakery :
    ∃ calls s, pipeline.Progress catalog [] store calls [oven] s ∧
      pipeline.run catalog [] store = pipeline.resume catalog [oven] s ∧
      (∃ call ∈ calls, call.craft = mill) ∧
      ∀ inputs, oven.inputs catalog s.context s.store (oven.namespaceFor s.context []) =
        .ok inputs → inputs.get "bran" = .ok (.string "husks") := by
  obtain ⟨calls, s, progress⟩ := exists_progress
  have built : pipeline.Built := .ofCrafts ofCrafts_eq
  have hproducer : mill ∈ pipeline.crafts := .tail _ (.head _)
  have hne : mill ≠ oven := fun h => absurd (congrArg Craft.id h) (by decide)
  have once : ∀ q ∈ oven.contract.required, q.name = "bran" → q.kind = .volatile := by
    simp [oven]
  obtain ⟨hrun, call, hcall, hcraft, hbody, value, houtput, -, hreceived⟩ :=
    built.volatile_received progress (.tail _ (.head _)) once hproducer hne (.tail _ (.head _))
  have hvalue : value = .string "husks" := by
    have hreturned := Except.ok.inj hbody
    rw [← hreturned] at houtput
    exact (Option.some.inj houtput).symm
  rw [hvalue] at hreceived
  exact ⟨calls, s, progress, hrun, ⟨call, hcall, hcraft⟩, hreceived⟩

end ArtifactFlow
