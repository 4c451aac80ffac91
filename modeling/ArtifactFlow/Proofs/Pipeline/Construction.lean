import ArtifactFlow.Pipeline.Definitions
import ArtifactFlow.Pipeline.Listing
import ArtifactFlow.Proofs.Pipeline.Assembly

/-!
The ways in which pipelines are made. Only a pipeline of a single craft comes without a graph being
built for it; all others are assembled, and what is assembled keeps names apart and runs in the
order of its graph. Whether the crafts that go in fit together plays no part here.
-/

namespace ArtifactFlow

/-- Crafts come from `Craft.make`, which refuses a contract that declares an output twice. -/
def Craft.Made (c : Craft) : Prop :=
  Craft.make c.id c.name c.contract c.body c.hooks = .ok c

/-- The registry after crafts have been registered one after another. -/
def CraftRegistry.ofCrafts (registered : List Craft) : CraftRegistry :=
  registered.foldl register []

theorem Contract.firstRepeated?_eq_none {seen names : List String} :
    firstRepeated? seen names = none ↔ names.Nodup ∧ ∀ name ∈ names, name ∉ seen := by
  induction names generalizing seen with
  | nil => simp [firstRepeated?]
  | cons first rest ih =>
      rw [firstRepeated?]
      by_cases hseen : first ∈ seen
      · simp [hseen]
      · simp only [List.contains_iff_mem, hseen, if_false, ih, List.nodup_cons, List.mem_cons,
          not_or, forall_eq_or_imp, not_false_eq_true, true_and]
        constructor
        · intro ⟨hrest, hnew⟩
          exact ⟨⟨fun hmem => (hnew first hmem).1 rfl, hrest⟩, fun name h => (hnew name h).2⟩
        · intro ⟨⟨hfirst, hrest⟩, hnew⟩
          refine ⟨hrest, fun name h => ⟨?_, hnew name h⟩⟩
          intro heq
          exact hfirst (heq ▸ h)

theorem Craft.made_iff {c : Craft} : c.Made ↔ c.contract.producedNames.Nodup := by
  have hnone : Contract.firstRepeated? [] c.contract.producedNames = none ↔
      c.contract.producedNames.Nodup := by
    simp [Contract.firstRepeated?_eq_none]
  rw [Made, make, ← hnone]
  cases Contract.firstRepeated? [] c.contract.producedNames <;> simp

namespace Pipeline

/-- Combines operands into a pipeline, from left to right. -/
def combineAll (operand : String → Except Fault Pipeline) (start : Pipeline)
    (operators : List String) : Except Fault Pipeline :=
  operators.foldlM (fun p operator => operand operator >>= p.combine) start

end Pipeline

namespace Definitions

/-- What an operator inside the definition of a name stands for. -/
def operand (ds : Definitions) (crafts : CraftRegistry) (levels : Nat) (stack : List String)
    (name operator : String) : Except Fault Pipeline :=
  if Fields.contains operator ds then ds.buildWithin crafts levels (name :: stack) operator
  else
    match Fields.get? operator crafts with
    | some craft => .ok (.ofCraft craft)
    | none => .error (.unknownCraft name operator)

theorem buildWithin_succ (ds : Definitions) (crafts : CraftRegistry) (levels : Nat)
    (stack : List String) (name : String) :
    ds.buildWithin crafts (levels + 1) stack name =
      if stack.contains name then .error (.cyclicDependency (cycleOf stack name))
      else
        match Fields.get? name ds with
        | none => .error (.unknownPipeline name)
        | some operators =>
            Pipeline.combineAll (ds.operand crafts levels stack name) (.empty name) operators := by
  have hstep (p : Pipeline) (operator : String) :
      (ds.operand crafts levels stack name operator >>= p.combine) =
      if Fields.contains operator ds then
        ds.buildWithin crafts levels (name :: stack) operator >>= p.combine
      else
        match Fields.get? operator crafts with
        | some craft => (Except.ok (.ofCraft craft) : Except Fault Pipeline) >>= p.combine
        | none => .error (.unknownCraft name operator) := by
    rw [operand]
    split
    · rfl
    · cases Fields.get? operator crafts <;> rfl
  simp only [Pipeline.combineAll, hstep]
  rfl

theorem buildWithin_succ_eq_ok {ds : Definitions} {crafts : CraftRegistry} {levels : Nat}
    {stack : List String} {name : String} {p : Pipeline} :
    ds.buildWithin crafts (levels + 1) stack name = .ok p ↔
      name ∉ stack ∧ ∃ operators, Fields.get? name ds = some operators ∧
        Pipeline.combineAll (ds.operand crafts levels stack name) (.empty name) operators =
          .ok p := by
  rw [buildWithin_succ]
  by_cases hstack : name ∈ stack
  · simp [hstack]
  · cases Fields.get? name ds <;> simp [hstack]

end Definitions

namespace Pipeline

/-- A pipeline that can be made: empty, from crafts, from definitions, or from other pipelines. -/
inductive Built : Pipeline → Prop where
  | empty (name : String) : Built (.empty name)
  | ofCraft {c : Craft} : c.Made → Built (.ofCraft c)
  | ofCrafts {name : String} {crafts : List Craft} {p : Pipeline} :
      ofCrafts name crafts = .ok p → Built p
  | withHook {p : Pipeline} (hook : Hook) : Built p → Built (p.withHook hook)
  | combine {left right p : Pipeline} :
      Built left → Built right → left.combine right = .ok p → Built p
  | definition {ds : Definitions} {crafts : CraftRegistry} {name : String} {p : Pipeline} :
      ds.build crafts name = .ok p → Built p

theorem nodup_names_of_addCraft {kept after : List Craft} {c : Craft}
    (hnames : (kept.map (·.name)).Nodup) (h : addCraft kept c = .ok after) :
    (after.map (·.name)).Nodup := by
  rw [addCraft] at h
  cases hfind : kept.find? (·.name = c.name) with
  | none =>
      have hnew : c.name ∉ kept.map (·.name) := by
        simpa using hfind
      simp only [hfind, Except.ok.injEq] at h
      exact h ▸ nodup_names_snoc hnames hnew
  | some present =>
      simp only [hfind] at h
      by_cases hid : present.id = c.id
      · simp only [hid, if_true, Except.ok.injEq] at h
        exact h ▸ hnames
      · simp [hid] at h

theorem nodup_names_of_foldlM {kept crafts after : List Craft}
    (hnames : (kept.map (·.name)).Nodup) (h : crafts.foldlM addCraft kept = .ok after) :
    (after.map (·.name)).Nodup := by
  induction crafts generalizing kept with
  | nil => exact Except.ok.inj h ▸ hnames
  | cons c crafts ih =>
      obtain ⟨mid, hmid, hrest⟩ := bind_eq_ok.1 h
      exact ih (nodup_names_of_addCraft hnames hmid) hrest

/-- What is assembled is well ordered, whatever it is assembled from. -/
theorem wellOrdered_of_assemble {name : String} {crafts : List Craft} {hooks : List Hook}
    {p : Pipeline} (h : assemble name crafts hooks = .ok p) : p.WellOrdered := by
  obtain ⟨kept, g, order, hkept, hg, horder, rfl⟩ := assemble_eq_ok.1 h
  have hnames : (([] : List Craft).map (·.name)).Nodup := List.nodup_nil
  exact ⟨nodup_names_of_foldlM hnames hkept, g, hg, horder⟩

theorem wellOrdered_empty (name : String) : (empty name).WellOrdered := by
  have h : assemble name [] [] = .ok (empty name) := rfl
  exact wellOrdered_of_assemble h

theorem acyclic_singleton (c : Craft) : Graph.Acyclic [c] := by
  intro i cycle
  obtain ⟨j, ⟨hne, p, d, hp, hd, -⟩, -⟩ := Relation.TransGen.head'_iff.1 cycle
  have hi := (List.getElem?_eq_some_iff.1 hp).1
  have hj := (List.getElem?_eq_some_iff.1 hd).1
  simp only [List.length_singleton] at hi hj
  omega

/-- A single craft runs in the order that its graph has, though the graph is never asked. -/
theorem wellOrdered_ofCraft {c : Craft} (made : c.Made) : (ofCraft c).WellOrdered := by
  have hmade : (Graph.madeNames [c]).Nodup := by
    simpa [Graph.madeNames] using Craft.made_iff.1 made
  have hg := Graph.ofCrafts_eq_ok.2 ⟨hmade, rfl⟩
  have acyclic := acyclic_singleton c
  have hperm := (Graph.schedule_extend hg acyclic).perm
  refine ⟨by simp [ofCraft], _, hg, ?_⟩
  rw [Graph.order_eq_ok (Graph.bounded_of_ofCrafts hg)]
  exact ⟨(Graph.acyclic_iff_leads hg).1 acyclic, (List.perm_singleton.1 hperm).symm⟩

theorem wellOrdered_of_combineAll {operand : String → Except Fault Pipeline}
    {operators : List String} {start p : Pipeline} (hstart : start.WellOrdered)
    (h : combineAll operand start operators = .ok p) : p.WellOrdered := by
  induction operators generalizing start with
  | nil => exact Except.ok.inj h ▸ hstart
  | cons operator operators ih =>
      obtain ⟨mid, hmid, hrest⟩ := bind_eq_ok.1 h
      obtain ⟨q, -, hcombine⟩ := bind_eq_ok.1 hmid
      exact ih (wellOrdered_of_assemble hcombine) hrest

theorem wellOrdered_of_buildWithin {ds : Definitions} {crafts : CraftRegistry} {levels : Nat}
    {stack : List String} {name : String} {p : Pipeline}
    (h : ds.buildWithin crafts levels stack name = .ok p) : p.WellOrdered := by
  cases levels with
  | zero => exact absurd h (by simp [Definitions.buildWithin])
  | succ levels =>
      obtain ⟨-, operators, -, hp⟩ := Definitions.buildWithin_succ_eq_ok.1 h
      exact wellOrdered_of_combineAll (wellOrdered_empty name) hp

theorem Built.wellOrdered {p : Pipeline} (h : p.Built) : p.WellOrdered := by
  induction h with
  | empty name => exact wellOrdered_empty name
  | ofCraft made => exact wellOrdered_ofCraft made
  | ofCrafts h => exact wellOrdered_of_assemble h
  | withHook hook _ ih => exact ⟨ih.names_nodup, ih.order_eq⟩
  | combine _ _ h => exact wellOrdered_of_assemble h
  | definition h => exact wellOrdered_of_buildWithin h

/-- Every pipeline that can be made holds crafts of distinct names that make distinct things, and
runs them producers first, in the very order that its graph has; so the graph can be drawn. -/
theorem Built.consistent {p : Pipeline} (h : p.Built) :
    (p.crafts.map (·.name)).Nodup ∧ (Graph.madeNames p.crafts).Nodup ∧
      Graph.Schedule p.crafts p.order ∧
      ∃ g, p.graph = .ok g ∧ g.order = .ok p.order ∧ p.drawing = .ok g.drawing := by
  have ordered := h.wellOrdered
  obtain ⟨g, hg, horder⟩ := ordered.order_eq
  have hdrawing : p.drawing = .ok g.drawing := by
    rw [drawing, hg]
    rfl
  exact ⟨ordered.names_nodup, (Graph.ofCrafts_eq_ok.1 hg).1, ordered.schedule, g, hg, horder,
    hdrawing⟩

namespace Training

def clean : Craft := .plain 0 "clean" [] ["rows"]

def fit : Craft := .plain 1 "fit" ["rows"] ["model"]

def score : Craft := .plain 2 "score" ["model"] []

def report : Craft := .plain 3 "report" ["model"] ["page"]

def registered : CraftRegistry :=
  .ofCrafts [clean, fit, score]

/-- A definition that lists its last craft first, then another definition and a craft of that
one. -/
def definitions : Definitions :=
  [("all", ["score", "prepare", "fit", "clean"]), ("prepare", ["clean"])]

end Training

open Training in
theorem Built.consistent_training :
    ∃ trained p g, definitions.build registered "all" = .ok trained ∧
      (trained.withHook (.observer "log")).combine (.ofCraft report) = .ok p ∧
      p.orderedNames = ["clean", "fit", "score", "report"] ∧
      (Graph.madeNames p.crafts).Nodup ∧ Graph.Schedule p.crafts p.order ∧
      p.graph = .ok g ∧ g.order = .ok p.order ∧ p.drawing = .ok g.drawing := by
  have made : report.Made := rfl
  have trained : definitions.build registered "all" = .ok _ := rfl
  have built : Built _ :=
    .combine (.withHook (.observer "log") (.definition trained)) (.ofCraft made) rfl
  obtain ⟨-, hmade, schedule, g, hg, horder, hdrawing⟩ := built.consistent
  exact ⟨_, _, g, rfl, rfl, rfl, hmade, schedule, hg, horder, hdrawing⟩

end Pipeline
end ArtifactFlow
