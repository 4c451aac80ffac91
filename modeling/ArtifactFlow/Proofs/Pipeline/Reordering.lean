import ArtifactFlow.Proofs.Run.Confluence

/-!
The order in which crafts are given. It decides in which of several possible orders a pipeline runs
them, and nothing that is left when a run is over.
-/

namespace ArtifactFlow

/-- The same volatiles and the same artifacts. -/
structure Outcome.Same (o p : Outcome) : Prop where
  volatiles : ∀ name, Fields.get? name o.volatiles = Fields.get? name p.volatiles
  artifacts : ∀ name, name ∈ o.artifacts ↔ name ∈ p.artifacts

/-- Two runs that both fail, or that both succeed and leave the same. -/
def Report.Agrees (a b : Report Outcome) : Prop :=
  match a.result, b.result with
  | .ok o, .ok p => o.Same p ∧ ∀ l, a.store.readAt l = b.store.readAt l
  | .error _, .error _ => True
  | _, _ => False

theorem Context.ofArgs_congr {names others : List String}
    (h : ∀ name, name ∈ names ↔ name ∈ others) (args : Mapping) :
    ofArgs args names = ofArgs args others := by
  apply foldlM_congr
  intro c entry _
  have hcontains : names.contains entry.1 = others.contains entry.1 := by
    simp [h]
  simp only [addArgument, hcontains]

namespace Pipeline

variable {p q : Pipeline} {catalog : Catalog} {args : Mapping} {store : Store} {context : Context}

/-- A run without any hooks, in terms of the calls. -/
theorem run_quiet (catalog : Catalog) (store : Store) (hooks : p.hooks = [])
    (quiet : ∀ c ∈ p.ordered, c.hooks = [])
    (hcontext : Context.ofArgs args (p.crafts.map (·.name)) = .ok context) :
    match Craft.afterAll? catalog p.ordered (some ⟨context, store, []⟩) with
    | some s => (p.run catalog args store).result = .ok s.context.outcome ∧
        (p.run catalog args store).store = s.store
    | none => ∃ e, (p.run catalog args store).result = .error e := by
  rw [← completed?_runCrafts catalog hooks quiet, Run.completed?, ← exec_perform catalog hooks,
    run_eq, hcontext]
  dsimp only
  rcases Run.exec (p.perform catalog) ⟨context, store, []⟩ with ⟨e | ⟨⟩, s⟩
  · exact ⟨e, rfl⟩
  · exact ⟨rfl, rfl⟩

theorem agrees_of_same (hooks : p.hooks = []) (hooks' : q.hooks = [])
    (quiet : ∀ c ∈ p.ordered, c.hooks = []) (quiet' : ∀ c ∈ q.ordered, c.hooks = [])
    (hcontext : Context.ofArgs args (p.crafts.map (·.name)) = .ok context)
    (hcontext' : Context.ofArgs args (q.crafts.map (·.name)) = .ok context)
    (same : RunState.Same context (Craft.afterAll? catalog p.ordered (some ⟨context, store, []⟩))
      (Craft.afterAll? catalog q.ordered (some ⟨context, store, []⟩))) :
    (p.run catalog args store).Agrees (q.run catalog args store) := by
  have hp := run_quiet catalog store hooks quiet hcontext
  have hq := run_quiet catalog store hooks' quiet' hcontext'
  have hvisible := same.visible
  cases hleft : Craft.afterAll? catalog p.ordered (some ⟨context, store, []⟩) with
  | none =>
      rw [hleft] at hp hvisible
      have hright : Craft.afterAll? catalog q.ordered (some ⟨context, store, []⟩) = none := by
        simpa using hvisible.symm
      rw [hright] at hq
      obtain ⟨e, he⟩ := hp
      obtain ⟨e', he'⟩ := hq
      rw [Report.Agrees, he, he']
      trivial
  | some s =>
      rw [hleft] at hp hvisible
      obtain ⟨t, hright, ht⟩ : ∃ t,
          Craft.afterAll? catalog q.ordered (some ⟨context, store, []⟩) = some t ∧
            t.visible = s.visible := by
        simpa using hvisible.symm
      rw [hright] at hq
      obtain ⟨hresult, hstore⟩ := hp
      obtain ⟨hresult', hstore'⟩ := hq
      rw [Report.Agrees, hresult, hresult', hstore, hstore']
      refine ⟨⟨?_, ?_⟩, ?_⟩
      · intro name
        exact (congrFun (congrArg Visible.volatile? ht) name).symm
      · intro name
        exact (iff_of_eq (congrFun (congrArg Visible.written ht) name)).symm
      · intro l
        exact (congrFun (congrArg Visible.stored ht) l).symm

/-- Crafts in another order make a pipeline if and only if they do in this one, and the runs of
the two pipelines agree. -/
theorem ofCrafts_perm (name : String) {crafts others : List Craft}
    (hperm : crafts.Perm others) (identified : Craft.Identified crafts) :
    ((∃ p, ofCrafts name crafts = .ok p) ↔ ∃ q, ofCrafts name others = .ok q) ∧
    ∀ p q, ofCrafts name crafts = .ok p → ofCrafts name others = .ok q →
      (∀ c ∈ crafts, c.hooks = []) →
      ∀ catalog : Catalog, catalog.FileAdapters →
      ∀ (args : Mapping) (store : Store), store.HasMemory →
        (∀ context, Context.ofArgs args (crafts.map (·.name)) = .ok context →
          Separate catalog context crafts) →
        (p.run catalog args store).Agrees (q.run catalog args store) := by
  have identified' : Craft.Identified others := fun c hc d hd =>
    identified c (hperm.mem_iff.2 hc) d (hperm.mem_iff.2 hd)
  constructor
  · rw [ofCrafts, ofCrafts, exists_assemble_iff identified, exists_assemble_iff identified']
    exact ⟨fun h => h.congr fun c => hperm.mem_iff.symm, fun h => h.congr fun c => hperm.mem_iff⟩
  · intro p q hp hq quiet catalog files args store memory separate
    obtain ⟨hordered, -, hooks, hall⟩ := assemble_spec identified hp
    obtain ⟨hordered', -, hooks', hall'⟩ := assemble_spec identified' hq
    have hmem : ∀ c, c ∈ p.ordered ↔ c ∈ crafts := fun c =>
      hordered.ordered_perm.mem_iff.trans (hall c)
    have hmem' : ∀ c, c ∈ q.ordered ↔ c ∈ crafts := fun c =>
      hordered'.ordered_perm.mem_iff.trans ((hall' c).trans hperm.mem_iff.symm)
    have hargs : Context.ofArgs args (p.crafts.map (·.name)) =
        Context.ofArgs args (crafts.map (·.name)) :=
      Context.ofArgs_congr (fun name => by simp only [List.mem_map, hall]) args
    have hargs' : Context.ofArgs args (q.crafts.map (·.name)) =
        Context.ofArgs args (crafts.map (·.name)) :=
      Context.ofArgs_congr (fun name => by
        simp only [List.mem_map, hall', hperm.mem_iff]) args
    cases hcontext : Context.ofArgs args (crafts.map (·.name)) with
    | error e =>
        rw [hcontext] at hargs hargs'
        rw [run_eq, run_eq, hargs, hargs']
        trivial
    | ok context =>
        rw [hcontext] at hargs hargs'
        have fits := hordered.composable.congr fun c => (hall c).symm
        have hboth : p.ordered.Perm q.ordered := by
          refine (List.perm_ext_iff_of_nodup ?_ ?_).2 fun c => (hmem c).trans (hmem' c).symm
          · exact hordered.ordered_perm.nodup_iff.2 hordered.nodup
          · exact hordered'.ordered_perm.nodup_iff.2 hordered'.nodup
        refine agrees_of_same hooks hooks' (fun c hc => quiet c ((hmem c).1 hc))
          (fun c hc => quiet c ((hmem' c).1 hc)) hargs hargs' ?_
        refine Craft.same_perm files fits.made_once (separate context hcontext)
          (fun c hc => (hmem c).1 hc) hboth (hordered.ordered_perm.nodup_iff.2 hordered.nodup)
          fits.one_producer hordered.ordered_pairwise hordered'.ordered_pairwise ?_
        intro s hs
        obtain rfl := Option.some.inj hs
        exact ⟨rfl, rfl, memory⟩

/-- Two crafts that make something for a third one. -/
def tea : List Craft :=
  [.plain 0 "pot" ["water", "leaves"] ["tea"], .plain 1 "kettle" [] ["water"],
    .plain 2 "garden" [] ["leaves"]]

def teaArgs : Mapping := [("folder", .string "kitchen")]

/-- Keeps artifacts in a folder that an argument names. -/
def teaCatalog : Catalog :=
  ⟨.empty, ["leaves", "tea", "water"].map fun name =>
    (name, ⟨name, "json", [("path", .string ("memory://!\x7bfolder\x7d/" ++ name))], [], [], [], []⟩),
    Adapter.builtin⟩

def teaStore : Store :=
  ⟨⟨.empty, []⟩, Backend.defaults ⟨"data"⟩⟩

theorem location?_tea {c : Craft} (hc : c ∈ tea) {name : String} (h : c.Touches name)
    {context : Context} (hcontext : Context.ofArgs teaArgs (tea.map (·.name)) = .ok context) :
    teaCatalog.location? name (c.namespaceFor context []) =
      some ⟨"memory", "kitchen/" ++ name⟩ := by
  obtain rfl : ⟨teaArgs, [], [], []⟩ = context := Except.ok.inj hcontext
  simp only [tea, List.mem_cons, List.not_mem_nil, or_false] at hc
  have hargs : c.namespaceFor ⟨teaArgs, [], [], []⟩ [] = teaArgs := by
    rcases hc with rfl | rfl | rfl <;> rfl
  have hname : name = "leaves" ∨ name = "tea" ∨ name = "water" := by
    rcases hc with rfl | rfl | rfl <;> simp [Craft.Touches, Craft.plain] at h <;> grind
  rw [hargs]
  rcases hname with rfl | rfl | rfl <;> decide +kernel

theorem separate_tea {context : Context}
    (hcontext : Context.ofArgs teaArgs (tea.map (·.name)) = .ok context) :
    Separate teaCatalog context tea := by
  constructor
  · intro c hc name h l hl
    rw [location?_tea hc h hcontext] at hl
    exact Option.some.inj hl ▸ rfl
  · intro c hc d hd x y hx hy hne l hl hl'
    rw [location?_tea hc hx hcontext] at hl
    rw [location?_tea hd hy hcontext, ← hl] at hl'
    have hpath : "kitchen/" ++ y = "kitchen/" ++ x :=
      congrArg Location.path (Option.some.inj hl')
    exact hne (by simpa using hpath.symm)

theorem ofCrafts_perm_tea : ∃ p q, ofCrafts "tea" tea = .ok p ∧
    ofCrafts "tea" tea.reverse = .ok q ∧
    (p.run teaCatalog teaArgs teaStore).Agrees (q.run teaCatalog teaArgs teaStore) := by
  have hp : ofCrafts "tea" tea = .ok ⟨"tea", tea, [1, 2, 0], []⟩ := rfl
  have hq : ofCrafts "tea" tea.reverse = .ok ⟨"tea", tea.reverse, [0, 1, 2], []⟩ := rfl
  have identified : Craft.Identified tea := by
    intro c hc d hd
    simp only [tea, List.mem_cons, List.not_mem_nil, or_false] at hc hd
    rcases hc with rfl | rfl | rfl <;> rcases hd with rfl | rfl | rfl <;> simp [Craft.plain]
  have quiet : ∀ c ∈ tea, c.hooks = [] := by
    simp [tea, Craft.plain]
  obtain ⟨-, runs⟩ := ofCrafts_perm "tea" tea.reverse_perm.symm identified
  exact ⟨_, _, hp, hq, runs _ _ hp hq quiet teaCatalog (Catalog.fileAdapters_builtin _ _) teaArgs
    teaStore ⟨[], rfl⟩ fun context hcontext => separate_tea hcontext⟩

end Pipeline
end ArtifactFlow
