import ArtifactFlow.Proofs.Run.Dataflow

/-!
Volatiles that a run does not find. A graph lists a name as an external input if no craft makes it;
a run looks among the volatiles that earlier crafts have made. The two differ where a craft needs
what it makes itself, and where a volatile is needed that is made as an artifact: such a name has a
producer, and is missing all the same.
-/

namespace ArtifactFlow

def Craft.Expects (craft : Craft) (name : String) : Prop :=
  ∃ r ∈ craft.contract.required, r.kind = .volatile ∧ r.name = name

/-- The name is made by the craft itself, or by one of some crafts as an artifact. -/
def Craft.Bypassed (craft : Craft) (crafts : List Craft) (name : String) : Prop :=
  name ∈ craft.contract.producedNames ∨ ∃ d ∈ crafts, ⟨name, .artifact⟩ ∈ d.contract.produced

namespace Pipeline

variable {p : Pipeline} {catalog : Catalog} {args : Mapping} {store : Store}
  {calls : List Call} {left : List Craft} {craft : Craft} {s : RunState} {name needer : String}

/-- When a run comes to a craft, what another craft makes as a volatile is there. A volatile that is
missing is thus made by no other craft, or not as a volatile. -/
theorem Progress.external_or_bypassed (ordered : p.WellOrdered) {g : Graph}
    (hg : p.graph = .ok g) (h : p.Progress catalog args store calls (craft :: left) s)
    (expects : craft.Expects name) (missing : s.context.volatile? name = none) :
    name ∈ g.externalInputs ∨ craft.Bypassed p.crafts name := by
  obtain ⟨r, hr, hkind, rfl⟩ := expects
  have hparam : r.kind ≠ .param := by simp [hkind]
  have hcraft := (h.mem_crafts_iff ordered).2 (.inr List.mem_cons_self)
  by_cases hmade : ∃ d ∈ p.crafts, r.name ∈ d.contract.producedNames
  · right
    obtain ⟨d, hd, hmade⟩ := hmade
    by_cases hself : d = craft
    · exact .inl (hself ▸ hmade)
    · obtain ⟨⟨_, kind⟩, hproduced, rfl⟩ := List.mem_map.1 hmade
      cases kind with
      | artifact => exact .inr ⟨d, hd, hproduced⟩
      | volatile =>
          have hsupplies := Craft.supplies_of_mem hproduced hr hparam
          obtain ⟨call, hcall, rfl⟩ := h.exists_call ordered hd hself hsupplies
          obtain ⟨value, -, hvalue⟩ := h.volatile?_eq ordered hcall hproduced
          exact absurd (missing.symm.trans hvalue) (by simp)
  · left
    refine (Graph.mem_externalInputs hg).2 ⟨⟨craft, hcraft, Graph.mem_needs hr hparam⟩, ?_⟩
    intro d hd hproduced
    exact hmade ⟨d, hd, hproduced⟩

theorem WellOrdered.exists_progress_of_unresolved (ordered : p.WellOrdered)
    (h : (p.run catalog args store).result = .error (.unresolvedVolatile needer name)) :
    ∃ calls craft left s, p.Progress catalog args store calls (craft :: left) s ∧
      craft.name = needer ∧ craft.Expects name ∧ s.context.volatile? name = none := by
  rcases ordered.run_eq_error h with
    ⟨_, he⟩ | ⟨_, _, he⟩ | ⟨calls, craft, left, s, progress, trouble⟩
  · cases he
  · cases he
  · cases trouble with
    | @input r _ hr hinput =>
        rcases Craft.input_eq_error hinput with hcatalog | ⟨hkind, hmissing, he⟩ | ⟨-, he⟩
        · exact hcatalog.elim
        · cases he
          exact ⟨calls, craft, left, s, progress, rfl, ⟨r, hr, hkind, rfl⟩, hmissing⟩
        · cases he
    | saving hcatalog => exact hcatalog.elim

/-- A run that misses a volatile misses an external input of the graph, or a name that the craft in
need makes itself or that is made as an artifact. Without any of these no run misses a volatile. -/
theorem Built.unresolved_external (built : p.Built) (catalog : Catalog) (args : Mapping)
    (store : Store) : ∃ g, p.graph = .ok g ∧
      (∀ needer name, (p.run catalog args store).result = .error (.unresolvedVolatile needer name) →
        ∃ craft ∈ p.crafts, craft.name = needer ∧ craft.Expects name ∧
          (name ∈ g.externalInputs ∨ craft.Bypassed p.crafts name)) ∧
      (g.externalInputs = [] →
        (∀ craft ∈ p.crafts, ∀ name, craft.Expects name → ¬ craft.Bypassed p.crafts name) →
        ∀ needer name,
          (p.run catalog args store).result ≠ .error (.unresolvedVolatile needer name)) := by
  have ordered := built.wellOrdered
  obtain ⟨g, hg, -⟩ := ordered.order_eq
  have unresolved : ∀ needer name,
      (p.run catalog args store).result = .error (.unresolvedVolatile needer name) →
        ∃ craft ∈ p.crafts, craft.name = needer ∧ craft.Expects name ∧
          (name ∈ g.externalInputs ∨ craft.Bypassed p.crafts name) := by
    intro needer name h
    obtain ⟨calls, craft, left, s, progress, hneeder, expects, missing⟩ :=
      ordered.exists_progress_of_unresolved h
    have hcraft := (progress.mem_crafts_iff ordered).2 (.inr List.mem_cons_self)
    exact ⟨craft, hcraft, hneeder, expects,
      progress.external_or_bypassed ordered hg expects missing⟩
  refine ⟨g, hg, unresolved, ?_⟩
  intro external apart needer name h
  obtain ⟨craft, hcraft, -, expects, hname | bypassed⟩ := unresolved needer name h
  · simp [external] at hname
  · exact apart craft hcraft name expects bypassed

end Pipeline

namespace Teapot

def pot (made : List Production) : Craft where
  id := 0
  name := "pot"
  contract := ⟨[⟨"water", .volatile, none⟩], made⟩
  body := fun _ => .ok (made.map fun p => (p.name, .string p.name))
  hooks := []

def kettle (kind : OutputKind) : Craft where
  id := 1
  name := "kettle"
  contract := ⟨[], [⟨"water", kind⟩]⟩
  body := fun _ => .ok [("water", .string "hot")]
  hooks := []

def catalog : Catalog :=
  ⟨.empty, [("water", ⟨"water", "text", [("path", .string "memory://water")], [], [], [], []⟩)],
    Adapter.builtin⟩

end Teapot

open Teapot in
theorem Pipeline.Built.unresolved_external_pot : ∃ p g, Pipeline.ofCrafts "tea" [pot []] = .ok p ∧
    p.graph = .ok g ∧
    (p.run catalog [] Bakery.store).result = .error (.unresolvedVolatile "pot" "water") ∧
    "water" ∈ g.externalInputs := by
  have hp : Pipeline.ofCrafts "tea" [pot []] = .ok ⟨"tea", [pot []], [0], []⟩ := rfl
  have hrun : ((⟨"tea", [pot []], [0], []⟩ : Pipeline).run catalog [] Bakery.store).result =
      .error (.unresolvedVolatile "pot" "water") := rfl
  obtain ⟨g, hg, unresolved, -⟩ :=
    Built.unresolved_external (.ofCrafts hp) catalog [] Bakery.store
  obtain ⟨craft, hcraft, -, -, hname | hmade | ⟨d, hd, hmade⟩⟩ := unresolved _ _ hrun
  · exact ⟨_, g, hp, hg, hrun, hname⟩
  · obtain rfl := List.mem_singleton.1 hcraft
    simp [pot, Contract.producedNames] at hmade
  · obtain rfl := List.mem_singleton.1 hd
    simp [pot] at hmade

open Teapot in
/-- A run may miss a volatile that is no external input: one that another craft writes as an
artifact, or one that the craft in need makes itself. -/
theorem Pipeline.Built.not_unresolved_external :
    (∀ crafts ∈ [[pot [], kettle .artifact], [pot [⟨"water", .volatile⟩]]], ∃ p g,
      Pipeline.ofCrafts "tea" crafts = .ok p ∧ p.graph = .ok g ∧ g.externalInputs = [] ∧
      (p.run catalog [] Bakery.store).result = .error (.unresolvedVolatile "pot" "water")) ∧
    ¬ ∀ (p : Pipeline) (g : Graph) (catalog : Catalog) (args : Mapping) (store : Store)
      (needer name : String), p.Built → p.graph = .ok g →
      (p.run catalog args store).result = .error (.unresolvedVolatile needer name) →
      name ∈ g.externalInputs := by
  have missed : ∀ crafts ∈ [[pot [], kettle .artifact], [pot [⟨"water", .volatile⟩]]], ∃ p g,
      Pipeline.ofCrafts "tea" crafts = .ok p ∧ p.graph = .ok g ∧ g.externalInputs = [] ∧
      (p.run catalog [] Bakery.store).result = .error (.unresolvedVolatile "pot" "water") := by
    intro crafts hcrafts
    simp only [List.mem_cons, List.not_mem_nil, or_false] at hcrafts
    rcases hcrafts with rfl | rfl
    · exact ⟨_, _, rfl, rfl, rfl, by cbv⟩
    · exact ⟨_, _, rfl, rfl, rfl, by cbv⟩
  refine ⟨missed, fun hall => ?_⟩
  obtain ⟨p, g, hp, hg, external, hrun⟩ := missed _ List.mem_cons_self
  have hname := hall p g catalog [] Bakery.store "pot" "water" (.ofCrafts hp) hg hrun
  simp [external] at hname

end ArtifactFlow
