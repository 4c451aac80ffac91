import ArtifactFlow.Proofs.Definitions.Grounded
import ArtifactFlow.Proofs.Pipeline.Union

/-!
Building from definitions. A name is built exactly if it is defined and grounded and the crafts that
it comes down to fit together; these are then the crafts of the pipeline. Combinations on the way
hold fewer crafts and cannot fail first. The bound on the levels is never met, because the stack
holds distinct definitions.
-/

namespace ArtifactFlow

namespace CraftRegistry

/-- The crafts that can be found in a registry. -/
def all (crafts : CraftRegistry) : List Craft :=
  (Fields.keys crafts).filterMap (Fields.get? · crafts)

theorem mem_all {crafts : CraftRegistry} {c : Craft} :
    c ∈ crafts.all ↔ ∃ name, Fields.get? name crafts = some c := by
  simp only [all, List.mem_filterMap]
  constructor
  · intro ⟨name, _, hget⟩
    exact ⟨name, hget⟩
  · intro ⟨name, hget⟩
    exact ⟨name, Fields.mem_keys_iff.2 ⟨c, hget⟩, hget⟩

/-- Crafts stand under their names, an identity stands for one of them, and none makes a name
twice. -/
structure Regular (crafts : CraftRegistry) : Prop where
  named : ∀ name c, Fields.get? name crafts = some c → c.name = name
  identified : Craft.Identified crafts.all
  made_once : ∀ c ∈ crafts.all, c.contract.producedNames.Nodup

theorem Regular.one_name {crafts : CraftRegistry} (h : crafts.Regular) :
    ∀ c ∈ crafts.all, ∀ d ∈ crafts.all, c.name = d.name → c = d := by
  intro c hc d hd hname
  obtain ⟨x, hx⟩ := mem_all.1 hc
  obtain ⟨y, hy⟩ := mem_all.1 hd
  have hkey : x = y := by rw [← h.named x c hx, ← h.named y d hy, hname]
  exact Option.some.inj (hx.symm.trans (hkey ▸ hy))

theorem get?_foldl_register {registered : List Craft} {crafts : CraftRegistry} {name : String}
    {c : Craft} (h : Fields.get? name (registered.foldl register crafts) = some c) :
    (c ∈ registered ∧ c.name = name) ∨ Fields.get? name crafts = some c := by
  induction registered generalizing crafts with
  | nil => exact .inr h
  | cons first rest ih =>
      cases ih h with
      | inl hrest => exact .inl ⟨List.mem_cons_of_mem _ hrest.1, hrest.2⟩
      | inr hold =>
          rw [register, Fields.get?_insertSorted] at hold
          by_cases hname : first.name = name
          · rw [if_pos hname] at hold
            obtain rfl := Option.some.inj hold
            exact .inl ⟨List.mem_cons_self, hname⟩
          · rw [if_neg hname] at hold
            exact .inr hold

theorem regular_ofCrafts {registered : List Craft} (identified : Craft.Identified registered)
    (made : ∀ c ∈ registered, c.Made) : (ofCrafts registered).Regular := by
  have hget {name : String} {c : Craft} (h : Fields.get? name (ofCrafts registered) = some c) :
      c ∈ registered ∧ c.name = name :=
    (get?_foldl_register h).resolve_right (by simp)
  have hsub : (ofCrafts registered).all ⊆ registered := by
    intro c hc
    obtain ⟨name, h⟩ := mem_all.1 hc
    exact (hget h).1
  exact ⟨fun name c h => (hget h).2, identified.mono hsub,
    fun c hc => Craft.made_iff.1 (made c (hsub hc))⟩

end CraftRegistry

namespace Pipeline

section Operands

variable {operand : String → Except Fault Pipeline} {operators : List String} {start p : Pipeline}
  {pool : List Craft}

/-- The operators stand for pipelines of crafts from a pool, if they stand for anything. -/
def Drawn (operand : String → Except Fault Pipeline) (pool : List Craft)
    (operators : List String) : Prop :=
  ∀ operator ∈ operators, ∀ q, operand operator = .ok q → q.WellOrdered ∧ q.crafts ⊆ pool

theorem combineAll_cons (operator : String) (operators : List String) :
    combineAll operand start (operator :: operators) =
      operand operator >>= start.combine >>= (combineAll operand · operators) :=
  List.foldlM_cons

theorem holds_append_self {q : Pipeline} (ordered : start.WellOrdered) (hsub : start.crafts ⊆ pool)
    (hq : q.WellOrdered ∧ q.crafts ⊆ pool) (identified : Craft.Identified pool)
    (h : start.combine q = .ok p) : p.Holds (start.crafts ++ q.crafts) :=
  ordered.holds.combine hq.1.holds (identified.mono (List.append_subset.2 ⟨hsub, hq.2⟩)) h

/-- What is combined holds the crafts of the start and of every operand. -/
theorem combineAll_sound (identified : Craft.Identified pool) (drawn : Drawn operand pool operators)
    (ordered : start.WellOrdered) (hsub : start.crafts ⊆ pool)
    (h : combineAll operand start operators = .ok p) :
    p.WellOrdered ∧ (∀ operator ∈ operators, ∃ q, operand operator = .ok q) ∧
      ∀ c, c ∈ p.crafts ↔ c ∈ start.crafts ∨
        ∃ operator ∈ operators, ∃ q, operand operator = .ok q ∧ c ∈ q.crafts := by
  induction operators generalizing start with
  | nil =>
      obtain rfl := Except.ok.inj h
      simpa using ordered
  | cons operator operators ih =>
      rw [combineAll_cons] at h
      obtain ⟨mid, hmid, hrest⟩ := bind_eq_ok.1 h
      obtain ⟨q, hq, hcombine⟩ := bind_eq_ok.1 hmid
      obtain ⟨hfirst, hdrawn⟩ := List.forall_mem_cons.1 drawn
      have holds := holds_append_self ordered hsub (hfirst q hq) identified hcombine
      have hmidsub : mid.crafts ⊆ pool := fun c hc =>
        List.append_subset.2 ⟨hsub, (hfirst q hq).2⟩ ((holds.mem c).1 hc)
      obtain ⟨hordered, hall, hmem⟩ := ih hdrawn holds.ordered hmidsub hrest
      refine ⟨hordered, List.forall_mem_cons.2 ⟨⟨q, hq⟩, hall⟩, ?_⟩
      intro c
      simp only [hmem, holds.mem, List.mem_append, List.exists_mem_cons_iff, hq, Except.ok.injEq,
        exists_eq_left', or_assoc]

/-- Operands whose crafts are all among some that fit together can be combined. -/
theorem combineAll_complete (identified : Craft.Identified pool) (fits : Composable pool)
    (drawn : Drawn operand pool operators)
    (hall : ∀ operator ∈ operators, ∃ q, operand operator = .ok q)
    (ordered : start.WellOrdered) (hsub : start.crafts ⊆ pool) :
    ∃ p, combineAll operand start operators = .ok p := by
  induction operators generalizing start with
  | nil => exact ⟨start, rfl⟩
  | cons operator operators ih =>
      obtain ⟨⟨q, hq⟩, hall⟩ := List.forall_mem_cons.1 hall
      obtain ⟨hfirst, hdrawn⟩ := List.forall_mem_cons.1 drawn
      have happend := List.append_subset.2 ⟨hsub, (hfirst q hq).2⟩
      obtain ⟨mid, hcombine⟩ := (ordered.holds.exists_combine_iff (hfirst q hq).1.holds
        (identified.mono happend)).2 (fits.mono happend)
      have holds := holds_append_self ordered hsub (hfirst q hq) identified hcombine
      obtain ⟨p, hp⟩ := ih hdrawn hall holds.ordered fun c hc => happend ((holds.mem c).1 hc)
      refine ⟨p, ?_⟩
      rw [combineAll_cons, hq, ok_bind, hcombine]
      exact hp

theorem combineAll_ne_duplicateCraft (identified : Craft.Identified pool)
    (one_name : ∀ c ∈ pool, ∀ d ∈ pool, c.name = d.name → c = d)
    (drawn : Drawn operand pool operators) {name : String}
    (hop : ∀ operator ∈ operators, operand operator ≠ .error (.duplicateCraft name))
    (ordered : start.WellOrdered) (hsub : start.crafts ⊆ pool) :
    combineAll operand start operators ≠ .error (.duplicateCraft name) := by
  induction operators generalizing start with
  | nil => exact nofun
  | cons operator operators ih =>
      obtain ⟨hfirst, hdrawn⟩ := List.forall_mem_cons.1 drawn
      obtain ⟨hop, hops⟩ := List.forall_mem_cons.1 hop
      rw [combineAll_cons]
      intro h
      cases hq : operand operator with
      | error e =>
          rw [hq] at h hop
          exact hop h
      | ok q =>
          have happend := List.append_subset.2 ⟨hsub, (hfirst q hq).2⟩
          rw [hq, ok_bind] at h
          cases hmid : start.combine q with
          | error e =>
              rw [hmid] at h
              refine ordered.holds.combine_ne_duplicateCraft (hfirst q hq).1.holds
                (identified.mono happend) ?_ name (hmid.trans h)
              exact fun c hc d hd => one_name c (happend hc) d (happend hd)
          | ok mid =>
              rw [hmid] at h
              have holds := holds_append_self ordered hsub (hfirst q hq) identified hmid
              exact ih hdrawn hops holds.ordered (fun c hc => happend ((holds.mem c).1 hc)) h

end Operands
end Pipeline

namespace Definitions

variable {ds : Definitions} {crafts : CraftRegistry} {levels : Nat} {stack : List String}
  {name operator : String} {operators : List String} {p q : Pipeline}

/-- The pipeline holds what the name comes down to, and the name is grounded. -/
structure Resolves (ds : Definitions) (crafts : CraftRegistry) (stack : List String)
    (name : String) (p : Pipeline) : Prop where
  grounded : ds.Grounded crafts stack name
  ordered : p.WellOrdered
  mem : ∀ c, c ∈ p.crafts ↔ ds.Gathers crafts name c

theorem mem_all_of_gathers {c : Craft} (h : ds.Gathers crafts name c) : c ∈ crafts.all := by
  obtain ⟨operator, -, -, hcraft⟩ := h
  exact CraftRegistry.mem_all.2 ⟨operator, hcraft⟩

theorem operand_eq_ok : ds.operand crafts levels stack name operator = .ok q ↔
    (Fields.contains operator ds ∧ ds.buildWithin crafts levels (name :: stack) operator = .ok q) ∨
      (Fields.get? operator ds = none ∧
        ∃ c, Fields.get? operator crafts = some c ∧ q = .ofCraft c) := by
  rw [operand, Fields.contains]
  cases Fields.get? operator ds with
  | some _ => simp
  | none => cases Fields.get? operator crafts <;> simp [eq_comm]

theorem resolves_ofCraft (regular : crafts.Regular) {c : Craft}
    (hnone : Fields.get? operator ds = none) (hcraft : Fields.get? operator crafts = some c) :
    ds.Resolves crafts stack operator (.ofCraft c) where
  grounded := (grounded_undefined_iff hnone).2 (Fields.contains_iff.2 ⟨c, hcraft⟩)
  ordered := Pipeline.wellOrdered_ofCraft
    (Craft.made_iff.2 (regular.made_once c (CraftRegistry.mem_all.2 ⟨operator, hcraft⟩)))
  mem d := by
    rw [gathers_undefined_iff hnone, hcraft]
    simp [Pipeline.ofCraft, eq_comm]

theorem resolves_operand (regular : crafts.Regular)
    (hbuild : Fields.contains operator ds →
      ds.buildWithin crafts levels (name :: stack) operator = .ok q →
      ds.Resolves crafts (name :: stack) operator q)
    (h : ds.operand crafts levels stack name operator = .ok q) :
    ds.Resolves crafts (name :: stack) operator q := by
  cases operand_eq_ok.1 h with
  | inl hdefined => exact hbuild hdefined.1 hdefined.2
  | inr hcraft =>
      obtain ⟨hnone, c, hget, rfl⟩ := hcraft
      exact resolves_ofCraft regular hnone hget

/-- What is built holds what the name comes down to. -/
theorem buildWithin_sound (regular : crafts.Regular)
    (h : ds.buildWithin crafts levels stack name = .ok p) :
    Fields.contains name ds ∧ ds.Resolves crafts stack name p := by
  induction levels generalizing stack name p with
  | zero => exact absurd h (by simp [buildWithin])
  | succ levels ih =>
      obtain ⟨hnew, operators, hname, hp⟩ := buildWithin_succ_eq_ok.1 h
      have hoperand {operator : String} {q : Pipeline}
          (h : ds.operand crafts levels stack name operator = .ok q) :
          ds.Resolves crafts (name :: stack) operator q :=
        resolves_operand regular (fun _ hq => (ih hq).2) h
      have drawn : Pipeline.Drawn (ds.operand crafts levels stack name) crafts.all operators :=
        fun _ _ q hq => ⟨(hoperand hq).ordered,
          fun c hc => mem_all_of_gathers (((hoperand hq).mem c).1 hc)⟩
      obtain ⟨hordered, hall, hmem⟩ := Pipeline.combineAll_sound regular.identified drawn
        (Pipeline.wellOrdered_empty name) (List.nil_subset _) hp
      refine ⟨Fields.contains_iff.2 ⟨operators, hname⟩, ?_, hordered, ?_⟩
      · refine (grounded_iff hname).2 ⟨hnew, fun operator hop => ?_⟩
        obtain ⟨q, hq⟩ := hall operator hop
        exact (hoperand hq).grounded
      · intro c
        rw [hmem, gathers_iff hname]
        constructor
        · intro h
          obtain ⟨operator, hop, q, hq, hc⟩ := h.resolve_left List.not_mem_nil
          exact ⟨operator, hop, ((hoperand hq).mem c).1 hc⟩
        · intro h
          obtain ⟨operator, hop, hc⟩ := h
          obtain ⟨q, hq⟩ := hall operator hop
          exact .inr ⟨operator, hop, q, hq, ((hoperand hq).mem c).2 hc⟩

/-- Where building stands: the stack holds distinct definitions, and levels are left for the
others. -/
structure Descent (ds : Definitions) (levels : Nat) (stack : List String) : Prop where
  nodup : stack.Nodup
  inside : ∀ name ∈ stack, Fields.contains name ds
  room : ds.length < levels + stack.length

theorem Descent.levels_ne_zero (h : Descent ds 0 stack) : False := by
  have hle := Fields.length_le_of_contains h.nodup h.inside
  have room := h.room
  omega

theorem Descent.step (h : Descent ds (levels + 1) stack) (hnew : name ∉ stack)
    (defined : Fields.contains name ds) : Descent ds levels (name :: stack) where
  nodup := List.nodup_cons.2 ⟨hnew, h.nodup⟩
  inside := List.forall_mem_cons.2 ⟨defined, h.inside⟩
  room := by
    have := h.room
    simp only [List.length_cons]
    omega

/-- A grounded definition is built if it comes down to crafts among some that fit together. -/
theorem buildWithin_complete (regular : crafts.Regular) {pool : List Craft}
    (identified : Craft.Identified pool) (fits : Composable pool)
    (descent : Descent ds levels stack) (defined : Fields.contains name ds)
    (grounded : ds.Grounded crafts stack name)
    (hpool : ∀ c, ds.Gathers crafts name c → c ∈ pool) :
    ∃ p, ds.buildWithin crafts levels stack name = .ok p := by
  induction levels generalizing stack name with
  | zero => exact descent.levels_ne_zero.elim
  | succ levels ih =>
      obtain ⟨operators, hname⟩ := Fields.contains_iff.1 defined
      obtain ⟨hnew, hgrounded⟩ := (grounded_iff hname).1 grounded
      have hbelow {operator : String} (hop : operator ∈ operators) (c : Craft)
          (h : ds.Gathers crafts operator c) : c ∈ pool :=
        hpool c ((gathers_iff hname).2 ⟨operator, hop, h⟩)
      have drawn : Pipeline.Drawn (ds.operand crafts levels stack name) pool operators := by
        intro operator hop q hq
        have resolves := resolves_operand regular (fun _ hq => (buildWithin_sound regular hq).2) hq
        exact ⟨resolves.ordered, fun c hc => hbelow hop c ((resolves.mem c).1 hc)⟩
      have hall : ∀ operator ∈ operators,
          ∃ q, ds.operand crafts levels stack name operator = .ok q := by
        intro operator hop
        cases hget : Fields.get? operator ds with
        | none =>
            obtain ⟨c, hcraft⟩ := Fields.contains_iff.1
              ((grounded_undefined_iff hget).1 (hgrounded operator hop))
            exact ⟨_, operand_eq_ok.2 (.inr ⟨hget, c, hcraft, rfl⟩)⟩
        | some _ =>
            have hdefined := Fields.contains_iff.2 ⟨_, hget⟩
            obtain ⟨q, hq⟩ := ih (descent.step hnew defined) hdefined (hgrounded operator hop)
              (hbelow hop)
            exact ⟨q, operand_eq_ok.2 (.inl ⟨hdefined, hq⟩)⟩
      obtain ⟨p, hp⟩ := Pipeline.combineAll_complete identified fits drawn hall
        (Pipeline.wellOrdered_empty name) (List.nil_subset _)
      exact ⟨p, buildWithin_succ_eq_ok.2 ⟨hnew, operators, hname, hp⟩⟩

theorem buildWithin_ne_duplicateCraft (regular : crafts.Regular) (clash : String) :
    ds.buildWithin crafts levels stack name ≠ .error (.duplicateCraft clash) := by
  induction levels generalizing stack name with
  | zero => simp [buildWithin]
  | succ levels ih =>
      rw [buildWithin_succ]
      by_cases hstack : name ∈ stack
      · simp [hstack]
      · cases hname : Fields.get? name ds with
        | none => simp [hstack]
        | some operators =>
            simp only [List.contains_iff_mem, hstack, if_false]
            apply Pipeline.combineAll_ne_duplicateCraft regular.identified regular.one_name
            · intro operator _ q hq
              have resolves :=
                resolves_operand regular (fun _ hq => (buildWithin_sound regular hq).2) hq
              exact ⟨resolves.ordered,
                fun c hc => mem_all_of_gathers ((resolves.mem c).1 hc)⟩
            · intro operator _
              rw [operand]
              split
              · exact ih
              · cases Fields.get? operator crafts <;> simp
            · exact Pipeline.wellOrdered_empty name
            · exact List.nil_subset _

/-- A name that can be built: it is defined, no definition below it stands below itself, all else
below it is registered, and the crafts that it comes down to make distinct things and do not depend
on each other in a circle. -/
structure Buildable (ds : Definitions) (crafts : CraftRegistry) (name : String) : Prop where
  defined : Fields.contains name ds
  no_recursion : ∀ other, ds.Reaches name other → ¬ Relation.TransGen ds.Uses other other
  registered : ∀ operator, ds.Reaches name operator → Fields.get? operator ds = none →
    Fields.contains operator crafts
  one_producer : ∀ c d, ds.Gathers crafts name c → ds.Gathers crafts name d →
    ∀ output ∈ c.contract.producedNames, output ∈ d.contract.producedNames → c = d
  acyclic : ∀ c, ¬ Relation.TransGen (fun producer consumer =>
    ds.Gathers crafts name producer ∧ ds.Gathers crafts name consumer ∧ producer ≠ consumer ∧
      producer.Supplies consumer) c c

open Classical in
/-- The crafts that a name comes down to, as a list. -/
noncomputable def gathered (ds : Definitions) (crafts : CraftRegistry) (name : String) :
    List Craft :=
  crafts.all.filter (ds.Gathers crafts name ·)

theorem mem_gathered {c : Craft} :
    c ∈ ds.gathered crafts name ↔ ds.Gathers crafts name c := by
  simp only [gathered, List.mem_filter, decide_eq_true_eq]
  exact ⟨And.right, fun h => ⟨mem_all_of_gathers h, h⟩⟩

theorem feedsAmong_gathered : Craft.FeedsAmong (ds.gathered crafts name) =
    fun producer consumer => ds.Gathers crafts name producer ∧ ds.Gathers crafts name consumer ∧
      producer ≠ consumer ∧ producer.Supplies consumer := by
  funext producer consumer
  simp only [Craft.FeedsAmong, mem_gathered]

theorem buildable_iff (regular : crafts.Regular) : ds.Buildable crafts name ↔
    Fields.contains name ds ∧ ds.Grounded crafts [] name ∧
      Composable (ds.gathered crafts name) := by
  have hall {c : Craft} (hc : c ∈ ds.gathered crafts name) : c ∈ crafts.all :=
    mem_all_of_gathers (mem_gathered.1 hc)
  constructor
  · intro h
    refine ⟨h.defined, ⟨fun _ _ _ => List.not_mem_nil, h.no_recursion, h.registered⟩, ?_⟩
    exact {
      one_name := fun c hc d hd => regular.one_name c (hall hc) d (hall hd)
      made_once := fun c hc => regular.made_once c (hall hc)
      one_producer := fun c hc d hd => h.one_producer c d (mem_gathered.1 hc) (mem_gathered.1 hd)
      acyclic := feedsAmong_gathered ▸ h.acyclic }
  · intro ⟨defined, grounded, fits⟩
    exact {
      defined
      no_recursion := grounded.no_recursion
      registered := grounded.registered
      one_producer := fun c d hc hd =>
        fits.one_producer c (mem_gathered.2 hc) d (mem_gathered.2 hd)
      acyclic := feedsAmong_gathered ▸ fits.acyclic }

/-- Building succeeds exactly for what can be built, and gives the crafts that the name comes down
to, each once; crafts from a registry never clash. -/
theorem exists_build_iff_buildable {registered : List Craft}
    (identified : Craft.Identified registered) (made : ∀ c ∈ registered, c.Made)
    (ds : Definitions) (name : String) :
    ((∃ p, ds.build (.ofCrafts registered) name = .ok p) ↔
      ds.Buildable (.ofCrafts registered) name) ∧
    (∀ p, ds.build (.ofCrafts registered) name = .ok p →
      p.crafts.Nodup ∧ ∀ c, c ∈ p.crafts ↔ ds.Gathers (.ofCrafts registered) name c) ∧
    ∀ clash, ds.build (.ofCrafts registered) name ≠ .error (.duplicateCraft clash) := by
  have regular := CraftRegistry.regular_ofCrafts identified made
  refine ⟨?_, ?_, fun clash => buildWithin_ne_duplicateCraft regular clash⟩
  · rw [buildable_iff regular]
    constructor
    · intro ⟨p, hp⟩
      obtain ⟨defined, resolves⟩ := buildWithin_sound regular hp
      exact ⟨defined, resolves.grounded, resolves.ordered.composable.congr fun c =>
        mem_gathered.trans (resolves.mem c).symm⟩
    · intro ⟨defined, grounded, fits⟩
      have hsub : ds.gathered (.ofCrafts registered) name ⊆ CraftRegistry.all _ :=
        fun c hc => mem_all_of_gathers (mem_gathered.1 hc)
      have descent : Descent ds (ds.length + 1) [] := ⟨List.nodup_nil, nofun, by simp⟩
      exact buildWithin_complete regular (regular.identified.mono hsub) fits descent defined
        grounded fun c hc => mem_gathered.2 hc
  · intro p hp
    obtain ⟨-, resolves⟩ := buildWithin_sound regular hp
    exact ⟨resolves.ordered.nodup, resolves.mem⟩

open Pipeline.Training in
theorem exists_build_iff_buildable_training :
    definitions.Buildable registered "all" ∧
      (∀ c, definitions.Gathers registered "all" c ↔ c = clean ∨ c = fit ∨ c = score) ∧
      ¬ (definitions.define "prepare" ["clean", "all"]).Buildable registered "all" := by
  have identified : Craft.Identified [clean, fit, score] :=
    Craft.identified_of_nodup (by decide)
  have made : ∀ c ∈ [clean, fit, score], c.Made := by
    simp only [List.forall_mem_cons]
    exact ⟨rfl, rfl, rfl, nofun⟩
  obtain ⟨hbuild, hmem, -⟩ := exists_build_iff_buildable identified made definitions "all"
  obtain ⟨hbuild', -, -⟩ := exists_build_iff_buildable identified made
    (definitions.define "prepare" ["clean", "all"]) "all"
  refine ⟨hbuild.1 ⟨_, rfl⟩, fun c => ?_, ?_⟩
  · have hcrafts : c ∈ [clean, fit, score] ↔ definitions.Gathers registered "all" c :=
      (hmem _ rfl).2 c
    simpa using hcrafts.symm
  · intro buildable
    obtain ⟨p, hp⟩ := hbuild'.2 buildable
    have hfault : (definitions.define "prepare" ["clean", "all"]).build registered "all" =
        .error (.cyclicDependency ["all", "prepare", "all"]) := rfl
    exact absurd (hfault.symm.trans hp) (by simp)

end Definitions
end ArtifactFlow
