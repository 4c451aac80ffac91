import ArtifactFlow.Proofs.Pipeline.Construction
import ArtifactFlow.Proofs.Run.Notices
import ArtifactFlow.Proofs.Run.Trouble
import Mathlib

/-!
What a call that fails leaves behind. Either something stood in its way before anything was saved,
and it is as if there had been no call, or one of the declared outputs could not be saved, and those
declared before it are there.
-/

namespace ArtifactFlow

namespace Catalog

/-- The catalog with another way to save for all of its adapters. -/
def savingBy (c : Catalog) (save : Request → Value → Store → Result Unit × Store) : Catalog :=
  { c with adapters := Fields.mapValues (fun adapter => { adapter with save }) c.adapters }

variable {c : Catalog} {save : Request → Value → Store → Result Unit × Store}
  {name : String} {args : Mapping} {s t : Store}

theorem resolve_savingBy (c : Catalog) (name : String) (args : Mapping) :
    (c.savingBy save).resolve name args = c.resolve name args := by
  have hfields (d : Declaration) (fields : Mapping) :
      (c.savingBy save).resolveFields d name args fields =
        c.resolveFields d name args fields := by
    induction fields with
    | nil => rfl
    | cons entry rest ih =>
        rw [resolveFields, resolveFields, ih]
        rfl
  rw [resolve, resolve]
  simp only [hfields]
  rfl

/-- Loading has nothing to do with how artifacts are saved. -/
theorem load_savingBy (c : Catalog) (name : String) (args : Mapping) (s : Store) :
    (c.savingBy save).load name args s = c.load name args s := by
  rw [load, load, prepare, prepare, resolve_savingBy]
  cases c.resolve name args with
  | error e => rfl
  | ok d =>
      simp only [ok_bind, adapterFor, savingBy, Fields.get?_mapValues]
      cases Fields.get? d.artifactType c.adapters <;> rfl

/-- Saving to memory fails without a trace. -/
theorem unchanged_of_save (files : c.FileAdapters) (hasMemory : s.HasMemory)
    (memory : ∀ l, c.location? name args = some l → l.scheme = "memory") {payload : Value}
    {e : Fault} (h : c.save name payload args s = (.error e, t)) : t = s := by
  rcases c.save_cases files name payload args with ⟨e', hfail⟩ | ⟨l, bytes, fault, hl, hsave⟩
  · rw [hfail] at h
    exact (Prod.mk.inj h).2.symm
  · obtain ⟨u, hwrite, -⟩ := Store.writeAt_memory hasMemory (memory l hl) bytes
    rw [hsave, hwrite] at h
    cases (Prod.mk.inj h).1

end Catalog

/-- The run goes from one state to another by receiving outputs in the order of their declaration:
volatiles are kept, artifacts are saved and recorded unless they are recorded already, and nothing
else happens. -/
structure RunState.Receives (catalog : Catalog) (args outputs : Mapping) (ps : List Production)
    (s t : RunState) : Prop where
  shared : t.context.shared = s.context.shared
  blocks : t.context.blocks = s.context.blocks
  volatiles : t.context.volatiles =
    s.context.volatiles ++ Production.delivered .volatile outputs ps
  artifacts : t.context.artifacts = s.context.artifacts ++
    (Fields.keys (Production.delivered .artifact outputs ps)).filter (· ∉ s.context.artifacts)
  saves : catalog.Saves (Production.savings args outputs ps) s.store t.store
  trace : t.trace = s.trace

namespace Craft

variable {craft : Craft} {catalog : Catalog} {args outputs : Mapping} {s t : RunState} {e : Fault}

theorem compute_savingBy (save : Request → Value → Store → Result Unit × Store)
    (context : Context) (store : Store) :
    craft.compute (catalog.savingBy save) context store args =
      craft.compute catalog context store args := by
  have hinput (r : Requirement) : craft.input (catalog.savingBy save) context store args r =
      craft.input catalog context store args r := by
    rw [input, input, Catalog.load_savingBy]
  have hinputs : craft.inputs (catalog.savingBy save) context store args =
      craft.inputs catalog context store args :=
    foldlM_congr fun acc r _ => by rw [hinput]
  rw [compute, compute, hinputs]

/-- Outputs that are not all delivered are delivered up to one that is not. -/
theorem deliverAll_eq_error {ps : List Production}
    (h : Run.exec (craft.deliverAll catalog args outputs ps) s = (.error e, t)) :
    ∃ before p after u, ps = before ++ p :: after ∧
      Run.exec (craft.deliverAll catalog args outputs before) s = (.ok (), u) ∧
        Run.exec (craft.deliver catalog args outputs p) u = (.error e, t) := by
  induction ps generalizing s with
  | nil => cases h
  | cons p ps ih =>
      rcases Run.exec_bind_eq_error.1 h with hfirst | ⟨⟨⟩, u, hfirst, hrest⟩
      · exact ⟨[], p, ps, s, rfl, rfl, hfirst⟩
      · obtain ⟨before, q, after, v, rfl, hbefore, hq⟩ := ih hrest
        exact ⟨p :: before, q, after, v, rfl, Run.exec_bind_eq_ok.2 ⟨⟨⟩, u, hfirst, hbefore⟩, hq⟩

theorem artifacts_deliver {p : Production}
    (h : Run.exec (craft.deliver catalog args outputs p) s = (.ok (), t)) :
    t.context.artifacts = match p.kind with
      | .artifact => (s.context.recordArtifact p.name).artifacts
      | .volatile => s.context.artifacts := by
  obtain ⟨name, kind⟩ := p
  cases kind with
  | artifact =>
      rw [exec_deliver_artifact] at h
      rcases hsave : catalog.save name ((Fields.get? name outputs).getD .null) args s.store with
        ⟨fault | ⟨⟩, store⟩
      · simp [hsave] at h
      · rw [hsave] at h
        cases h
        rfl
  | volatile =>
      rw [exec_deliver_volatile] at h
      cases hinsert : s.context.insertVolatile craft.name name
          ((Fields.get? name outputs).getD .null) with
      | error fault => simp [hinsert] at h
      | ok context =>
          rw [hinsert] at h
          cases h
          rw [Context.insertVolatile_eq_ok hinsert]

/-- The artifacts among outputs are recorded in their order, but for those that were recorded
before. -/
theorem artifacts_deliverAll {ps : List Production} (distinct : (ps.map (·.name)).Nodup)
    (h : Run.exec (craft.deliverAll catalog args outputs ps) s = (.ok (), t)) :
    t.context.artifacts = s.context.artifacts ++
      ((ps.filter (·.kind = .artifact)).map (·.name)).filter (· ∉ s.context.artifacts) := by
  induction ps generalizing s with
  | nil =>
      cases h
      simp
  | cons p ps ih =>
      obtain ⟨hnew, distinct⟩ := List.nodup_cons.1 distinct
      obtain ⟨⟨⟩, u, hfirst, hrest⟩ := Run.exec_bind_eq_ok.1 h
      have hrecorded := artifacts_deliver hfirst
      rw [ih distinct hrest]
      obtain ⟨name, kind⟩ := p
      cases kind with
      | volatile =>
          rw [hrecorded]
          simp
      | artifact =>
          by_cases hmem : name ∈ s.context.artifacts
          · have hsame : u.context.artifacts = s.context.artifacts := by
              rw [hrecorded]
              simp [Context.recordArtifact, hmem]
            rw [hsame]
            simp [hmem]
          · have hadded : u.context.artifacts = s.context.artifacts ++ [name] := by
              rw [hrecorded, Context.recordArtifact_of_notMem hmem]
            have hrest : ((ps.filter (·.kind = .artifact)).map (·.name)).filter
                (· ∉ s.context.artifacts ++ [name]) =
                  ((ps.filter (·.kind = .artifact)).map (·.name)).filter
                    (· ∉ s.context.artifacts) := by
              refine List.filter_congr fun other hother => ?_
              have hne : other ≠ name := by
                rintro rfl
                obtain ⟨q, hq, rfl⟩ := List.mem_map.1 hother
                exact hnew (List.mem_map.2 ⟨q, (List.mem_filter.1 hq).1, rfl⟩)
              simp [hne]
            rw [hadded, hrest]
            simp [hmem]

theorem receives_deliverAll {ps : List Production} (present : Production.Present outputs ps)
    (distinct : (ps.map (·.name)).Nodup)
    (h : Run.exec (craft.deliverAll catalog args outputs ps) s = (.ok (), t)) :
    s.Receives catalog args outputs ps t := by
  have moves := moves_deliverAll present h
  refine ⟨moves.shared, moves.blocks, moves.volatiles, ?_, moves.saves, ?_⟩
  · rw [Production.keys_delivered present]
    exact artifacts_deliverAll distinct h
  · exact (silent_deliverAll craft catalog args outputs ps).trace_eq h

/-- Outputs under different names that cannot all be delivered are delivered up to an artifact that
cannot be saved. -/
theorem receives_of_deliverAll (files : catalog.FileAdapters) {ps : List Production}
    (present : Production.Present outputs ps) (distinct : (ps.map (·.name)).Nodup)
    (fresh : ∀ name, ⟨name, .volatile⟩ ∈ ps → s.context.volatile? name = none)
    (hasMemory : s.store.HasMemory)
    (memory : ∀ name, ⟨name, .artifact⟩ ∈ ps →
      ∀ l, catalog.location? name args = some l → l.scheme = "memory")
    (h : Run.exec (craft.deliverAll catalog args outputs ps) s = (.error e, t)) :
    ∃ before name after payload, ps = before ++ ⟨name, .artifact⟩ :: after ∧
      Fields.get? name outputs = some payload ∧ s.Receives catalog args outputs before t ∧
        catalog.save name payload args t.store = (.error e, t.store) := by
  obtain ⟨before, ⟨name, kind⟩, after, u, rfl, hbefore, hlast⟩ := deliverAll_eq_error h
  have hsub : before ⊆ before ++ ⟨name, kind⟩ :: after := List.subset_append_left _ _
  have hmem : ⟨name, kind⟩ ∈ before ++ ⟨name, kind⟩ :: after :=
    List.mem_append_right before List.mem_cons_self
  have distinct' : (before.map (·.name)).Nodup :=
    distinct.sublist ((List.sublist_append_left _ _).map _)
  have receives := receives_deliverAll (fun p hp => present p (hsub hp)) distinct' hbefore
  obtain ⟨payload, hpayload⟩ := present _ hmem
  cases kind with
  | artifact =>
      have hkept : u.store.HasMemory := by
        obtain ⟨plan, -, hrun⟩ := deliverAll_plan craft s.context files args outputs distinct'
          fun name hname => memory name (hsub hname)
        have hfollows := hrun s ⟨rfl, rfl, hasMemory⟩ fun name hname => fresh name (hsub hname)
        rw [hbefore] at hfollows
        exact hfollows.1.memory
      rw [exec_deliver_artifact, hpayload] at hlast
      rcases hsave : catalog.save name payload args u.store with ⟨fault | ⟨⟩, store⟩
      · rw [Option.getD_some, hsave] at hlast
        cases hlast
        obtain rfl := Catalog.unchanged_of_save files hkept (memory name hmem) hsave
        exact ⟨before, name, after, payload, rfl, hpayload, receives, hsave⟩
      · simp [hsave] at hlast
  | volatile =>
      -- Volatiles cannot fail: what collides is found before any output is delivered.
      have hcatalog := ofCatalog_of_deliverAll present distinct fresh h
      rw [exec_deliver_volatile] at hlast
      cases hinsert : u.context.insertVolatile craft.name name
          ((Fields.get? name outputs).getD .null) with
      | ok context => simp [hinsert] at hlast
      | error fault =>
          rw [hinsert] at hlast
          cases hlast
          rcases bind_eq_error.1 hinsert with hfree | ⟨_, -, hpure⟩
          · rw [(Context.checkFree_eq_error.1 hfree).2] at hcatalog
            exact hcatalog.elim
          · cases hpure

/-- A call that fails, of a craft without hooks that keeps its artifacts in memory, has done nothing
at all, or it has delivered the outputs declared before one that could not be saved. In the first
case it ends in the same way whatever saving does, so that it has not come to saving anything. A
volatile that is there already is found in this way. -/
theorem invoke_failed (made : craft.Made) (hooks : craft.hooks = [])
    (files : catalog.FileAdapters) (overrides : Mapping) (hasMemory : s.store.HasMemory)
    (memory : ∀ name, ⟨name, .artifact⟩ ∈ craft.contract.produced →
      ∀ l, catalog.location? name (craft.namespaceFor s.context overrides) = some l →
        l.scheme = "memory")
    (h : Run.exec (craft.invoke catalog overrides) s = (.error e, t)) :
    (t = s ∧ craft.Obstacle catalog s (craft.namespaceFor s.context overrides) e ∧
      ∀ save, Run.exec (craft.invoke (catalog.savingBy save) overrides) s = (.error e, s)) ∨
    ((∃ inputs outputs before name after payload,
        craft.inputs catalog s.context s.store (craft.namespaceFor s.context overrides) =
          .ok inputs ∧ craft.body inputs = .ok outputs ∧
        craft.contract.produced = before ++ ⟨name, .artifact⟩ :: after ∧
        Fields.get? name outputs = some payload ∧
        s.Receives catalog (craft.namespaceFor s.context overrides) outputs before t ∧
        catalog.save name payload (craft.namespaceFor s.context overrides) t.store =
          (.error e, t.store)) ∧
      ∀ other name, e ≠ .volatileCollision other name) := by
  rw [exec_invoke catalog hooks, exec_perform] at h
  cases hcompute : craft.compute catalog s.context s.store
      (craft.namespaceFor s.context overrides) with
  | error fault =>
      rw [hcompute] at h
      cases h
      refine .inl ⟨rfl, obstacle_of_compute hcompute, fun save => ?_⟩
      rw [exec_invoke _ hooks, exec_perform, compute_savingBy, hcompute]
  | ok outputs =>
      rw [hcompute] at h
      obtain ⟨inputs, hinputs, houtputs, -⟩ := compute_eq_ok.1 hcompute
      obtain ⟨hbody, present⟩ := outputs_eq_ok houtputs
      have distinct := made_iff.1 made
      have fresh (name : String) (hname : ⟨name, .volatile⟩ ∈ craft.contract.produced) :
          s.context.volatile? name = none := free_of_compute hcompute hname
      obtain ⟨before, name, after, payload, hsplit, hpayload, receives, hsave⟩ :=
        receives_of_deliverAll files present distinct fresh hasMemory memory h
      have hcatalog := ofCatalog_of_deliverAll present distinct fresh h
      refine .inr ⟨⟨inputs, outputs, before, name, after, payload, hinputs, hbody, hsplit, hpayload,
        receives, hsave⟩, ?_⟩
      rintro other name rfl
      exact hcatalog

end Craft

namespace Cooperage

/-- The third output is a number, which the catalog does not take for a text. -/
def cooper : Craft where
  id := 0
  name := "cooper"
  contract := ⟨[⟨"staves", .volatile, none⟩],
    [⟨"hoops", .volatile⟩, ⟨"cask", .artifact⟩, ⟨"bung", .artifact⟩, ⟨"chips", .volatile⟩]⟩
  body := fun i => return [("bung", .int 1), ("cask", ← i.get "staves"), ("chips", .null),
    ("hoops", .int 6)]
  hooks := []

def catalog : Catalog :=
  ⟨.empty, ["bung", "cask"].map fun name =>
    (name, ⟨name, "text", [("path", .string ("memory://" ++ name))], [], [], [], []⟩),
    Adapter.builtin⟩

/-- A run in which staves were split, and a lid was made. -/
def start : RunState :=
  ⟨⟨[], [], [("staves", .string "oak")], ["lid"]⟩, ⟨⟨.empty, []⟩, Backend.defaults ⟨"data"⟩⟩, []⟩

def fault : Fault :=
  .adapter "bung" "text" (.message "text artifacts must be strings, got 1")

theorem fails : (Run.exec (cooper.invoke catalog []) start).1 = .error fault := by
  cbv

theorem memory {name : String} (h : ⟨name, .artifact⟩ ∈ cooper.contract.produced) (l : Location)
    (hl : catalog.location? name (cooper.namespaceFor start.context []) = some l) :
    l.scheme = "memory" := by
  have hname : name = "cask" ∨ name = "bung" := by
    simpa [cooper] using h
  have hlocation : catalog.location? name (cooper.namespaceFor start.context []) =
      some ⟨"memory", name⟩ := by
    rcases hname with rfl | rfl <;> decide +kernel
  exact Option.some.inj (hlocation.symm.trans hl) ▸ rfl

end Cooperage

open Cooperage in
theorem Craft.invoke_failed_cooperage : ∃ t, Run.exec (cooper.invoke catalog []) start =
      (.error fault, t) ∧
    t.context.volatiles = [("staves", .string "oak"), ("hoops", .int 6)] ∧
    t.context.artifacts = ["lid", "cask"] ∧
    ∃ outputs before name after, cooper.contract.produced = before ++ ⟨name, .artifact⟩ :: after ∧
      start.Receives catalog [] outputs before t := by
  have h : Run.exec (cooper.invoke catalog []) start =
      (.error fault, (Run.exec (cooper.invoke catalog []) start).2) := Prod.ext fails rfl
  have hvolatiles : (Run.exec (cooper.invoke catalog []) start).2.context.volatiles =
      [("staves", .string "oak"), ("hoops", .int 6)] := by
    cbv
  have made : cooper.Made := made_iff.2 (by decide)
  refine ⟨_, h, hvolatiles, by cbv, ?_⟩
  rcases invoke_failed made rfl (Catalog.fileAdapters_builtin _ _) [] ⟨[], rfl⟩
    (fun name => memory) h with ⟨hsame, -⟩ | ⟨⟨inputs, outputs, before, name, after, payload,
      -, -, hsplit, -, receives, -⟩, -⟩
  · rw [hsame] at hvolatiles
    cases hvolatiles
  · exact ⟨outputs, before, name, after, hsplit, receives⟩

end ArtifactFlow
