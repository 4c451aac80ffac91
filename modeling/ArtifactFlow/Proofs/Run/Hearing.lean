import ArtifactFlow.Proofs.Run.Notices

/-!
What the hooks of a run hear from beginning to end, where none of them refuses: each craft's hooks
around its part of the run, the pipeline's hooks around all of it, and after a failure those of the
craft and then those of the pipeline. What the run comes to is what it would be without them.
-/

namespace ArtifactFlow

open Run

namespace Hook

/-- The hook never refuses. -/
structure Quiet (hook : Hook) : Prop where
  before : ∀ target context, hook.before target context = .ok ()
  after : ∀ target context, hook.after target context = .ok ()

variable {hooks : List Hook}

theorem exec_callBefore_of_quiet (quiet : ∀ hook ∈ hooks, hook.Quiet) (target : String)
    (s : RunState) : exec (callBefore target hooks) s =
      (.ok (), s.tell (notices target (.before s.context) hooks)) := by
  rw [exec_callBefore, consult_of_quiet fun hook hmem => (quiet hook hmem).before _ _]

theorem exec_callAfter_of_quiet (quiet : ∀ hook ∈ hooks, hook.Quiet) (target : String)
    (s : RunState) : exec (callAfter target hooks) s =
      (.ok (), s.tell (notices target (.after s.context) hooks)) := by
  rw [exec_callAfter, consult_of_quiet fun hook hmem => (quiet hook hmem).after _ _]

end Hook

/-- The part of a craft in a run that ended well. -/
structure Visit where
  craft : Craft
  start : Context
  finish : Context

/-- What the craft's own hooks hear of it. -/
def Visit.notices (visit : Visit) : List Notice :=
  Hook.notices visit.craft.name (.before visit.start) visit.craft.hooks ++
    Hook.notices visit.craft.name (.after visit.finish) visit.craft.hooks

/-- Crafts end well one after another, and take a run from one state to another. -/
inductive Visits (catalog : Catalog) : RunState → List Visit → RunState → Prop where
  | nil (s : RunState) : Visits catalog s [] s
  | cons {s t u : RunState} {craft : Craft} {visits : List Visit} :
      exec (craft.perform catalog []) s = (.ok (), t) → Visits catalog t visits u →
      Visits catalog s (⟨craft, s.context, t.context⟩ :: visits) u

namespace Craft

def unwatched (craft : Craft) : Craft :=
  { craft with hooks := [] }

variable {craft : Craft} {catalog : Catalog} {s t : RunState}

theorem exec_invoke_visit (quiet : ∀ hook ∈ craft.hooks, hook.Quiet)
    (h : exec (craft.perform catalog []) s = (.ok (), t)) (told : List Notice) :
    exec (craft.invoke catalog []) (s.tell told) =
      (.ok (), t.tell (told ++ Visit.notices ⟨craft, s.context, t.context⟩)) := by
  have hperform := (craft.silent_perform catalog []).exec_tell h
  simp only [invoke, exec_bind, Hook.exec_callBefore_of_quiet quiet, exec_told,
    RunState.tell_tell, hperform, Hook.exec_callAfter_of_quiet quiet, List.append_assoc]
  rfl

theorem exec_invoke_failing (quiet : ∀ hook ∈ craft.hooks, hook.Quiet) {e : Fault}
    (h : exec (craft.perform catalog []) s = (.error e, t)) (told : List Notice) :
    exec (craft.invoke catalog []) (s.tell told) =
      (.error e, t.tell (told ++ Hook.notices craft.name (.before s.context) craft.hooks ++
        Hook.notices craft.name (.failed e) craft.hooks)) := by
  have hperform := (craft.silent_perform catalog []).exec_tell h
  simp only [invoke, exec_bind, Hook.exec_callBefore_of_quiet quiet, exec_told,
    RunState.tell_tell, hperform]
  rfl

theorem deliverAll_unwatched (craft : Craft) (catalog : Catalog) (args outputs : Mapping)
    (ps : List Production) : craft.unwatched.deliverAll catalog args outputs ps =
      craft.deliverAll catalog args outputs ps := by
  induction ps with
  | nil => rfl
  | cons p ps ih => exact congrArg (craft.deliver catalog args outputs p >>= fun _ => ·) ih

theorem exec_perform_unwatched (craft : Craft) (catalog : Catalog) (s : RunState) :
    exec (craft.unwatched.perform catalog []) s = exec (craft.perform catalog []) s := by
  simp only [exec_perform, deliverAll_unwatched]
  rfl

end Craft

/-- The same part of the craft without its hooks. -/
def Visit.unwatched (visit : Visit) : Visit :=
  { visit with craft := visit.craft.unwatched }

namespace Visits

variable {catalog : Catalog} {s t : RunState} {visits : List Visit}

/-- Crafts end well up to the first that fails, or to the last. -/
theorem exists_of_crafts (catalog : Catalog) (crafts : List Craft) (s : RunState) :
    ∃ visits t, Visits catalog s visits t ∧ (crafts = visits.map (·.craft) ∨
      ∃ craft left e u, crafts = visits.map (·.craft) ++ craft :: left ∧
        exec (craft.perform catalog []) t = (.error e, u)) := by
  induction crafts generalizing s with
  | nil => exact ⟨[], s, .nil s, .inl rfl⟩
  | cons craft rest ih =>
      rcases hperform : exec (craft.perform catalog []) s with ⟨e | ⟨⟩, t⟩
      · exact ⟨[], s, .nil s, .inr ⟨craft, rest, e, t, rfl, hperform⟩⟩
      · obtain ⟨visits, u, hvisits, hend⟩ := ih t
        refine ⟨_, u, .cons hperform hvisits, ?_⟩
        cases hend with
        | inl hall => exact .inl (by rw [hall]; rfl)
        | inr hfails =>
            obtain ⟨next, left, e, v, hcrafts, hfails⟩ := hfails
            exact .inr ⟨next, left, e, v, by rw [hcrafts]; rfl, hfails⟩

theorem trace_eq (h : Visits catalog s visits t) : t.trace = s.trace := by
  induction h with
  | nil s => rfl
  | cons hperform _ ih =>
      rw [ih, (Craft.silent_perform _ catalog []).trace_eq hperform]

/-- The same crafts do the same without hooks. -/
theorem unwatched (h : Visits catalog s visits t) :
    Visits catalog s (visits.map Visit.unwatched) t := by
  induction h with
  | nil s => exact .nil s
  | cons hperform _ ih =>
      exact .cons ((Craft.exec_perform_unwatched _ catalog _).trans hperform) ih

end Visits

namespace Pipeline

/-- The pipeline with no hooks at it or at its crafts. -/
def unwatched (p : Pipeline) : Pipeline :=
  { p with crafts := p.crafts.map Craft.unwatched, hooks := [] }

/-- How a run that starts in a state ends, and what hooks hear of it in this order: those of the
pipeline, those of each craft in the order of the run up to the first that fails, and those of the
pipeline again. -/
inductive Heard (p : Pipeline) (catalog : Catalog) (start : RunState) : Report Outcome → Prop where
  | completed {visits : List Visit} {s : RunState} :
      Visits catalog start visits s → p.ordered = visits.map (·.craft) →
      Heard p catalog start ⟨.ok s.context.outcome, s.store,
        Hook.notices p.name (.before start.context) p.hooks ++ visits.flatMap Visit.notices ++
          Hook.notices p.name (.after s.context) p.hooks⟩
  | failed {visits : List Visit} {craft : Craft} {left : List Craft} {s t : RunState} {e : Fault} :
      Visits catalog start visits s → p.ordered = visits.map (·.craft) ++ craft :: left →
      exec (craft.perform catalog []) s = (.error e, t) →
      Heard p catalog start ⟨.error e, t.store,
        Hook.notices p.name (.before start.context) p.hooks ++ visits.flatMap Visit.notices ++
          Hook.notices craft.name (.before s.context) craft.hooks ++
          Hook.notices craft.name (.failed e) craft.hooks ++
          Hook.notices p.name (.failed e) p.hooks⟩

variable {p : Pipeline} {catalog : Catalog} {args : Mapping} {store : Store} {context : Context}
  {visits : List Visit} {s t : RunState}

theorem exec_runCrafts_visits (h : Visits catalog s visits t)
    (quiet : ∀ visit ∈ visits, ∀ hook ∈ visit.craft.hooks, hook.Quiet) (rest : List Craft)
    (told : List Notice) :
    exec (p.runCrafts catalog (visits.map (·.craft) ++ rest)) (s.tell told) =
      exec (p.runCrafts catalog rest) (t.tell (told ++ visits.flatMap Visit.notices)) := by
  induction h generalizing told with
  | nil s => rw [List.map_nil, List.nil_append, List.flatMap_nil, List.append_nil]
  | cons hperform _ ih =>
      obtain ⟨hcraft, hrest⟩ := List.forall_mem_cons.1 quiet
      rw [List.map_cons, List.cons_append, runCrafts, exec_bind, exec_told,
        Craft.exec_invoke_visit hcraft hperform]
      dsimp only
      rw [ih hrest, List.flatMap_cons, List.append_assoc]

section Quiet

variable (haccepted : Context.ofArgs args (p.crafts.map (·.name)) = .ok context)
  (hhooks : ∀ hook ∈ p.hooks, hook.Quiet)
  (hvisits : Visits catalog ⟨context, store, []⟩ visits s)
  (quiet : ∀ visit ∈ visits, ∀ hook ∈ visit.craft.hooks, hook.Quiet)
include haccepted hhooks hvisits quiet

theorem run_completed (hordered : p.ordered = visits.map (·.craft)) :
    p.run catalog args store = ⟨.ok s.context.outcome, s.store,
      Hook.notices p.name (.before context) p.hooks ++ visits.flatMap Visit.notices ++
        Hook.notices p.name (.after s.context) p.hooks⟩ := by
  have htrace : s.trace = [] := hvisits.trace_eq
  have hcrafts := exec_runCrafts_visits (p := p) hvisits quiet []
    (Hook.notices p.name (.before context) p.hooks)
  rw [List.append_nil, ← hordered, runCrafts, exec_pure] at hcrafts
  rw [run_eq, haccepted]
  simp only [perform, exec_bind, Hook.exec_callBefore_of_quiet hhooks, hcrafts,
    Hook.exec_callAfter_of_quiet hhooks]
  simp only [RunState.tell, htrace, List.nil_append]

theorem run_failed {craft : Craft} {left : List Craft} {e : Fault}
    (hordered : p.ordered = visits.map (·.craft) ++ craft :: left)
    (hcraft : ∀ hook ∈ craft.hooks, hook.Quiet)
    (hfails : exec (craft.perform catalog []) s = (.error e, t)) :
    p.run catalog args store = ⟨.error e, t.store,
      Hook.notices p.name (.before context) p.hooks ++ visits.flatMap Visit.notices ++
        Hook.notices craft.name (.before s.context) craft.hooks ++
        Hook.notices craft.name (.failed e) craft.hooks ++
        Hook.notices p.name (.failed e) p.hooks⟩ := by
  have htrace : t.trace = [] :=
    ((craft.silent_perform catalog []).trace_eq hfails).trans hvisits.trace_eq
  have hcrafts := exec_runCrafts_visits (p := p) hvisits quiet (craft :: left)
    (Hook.notices p.name (.before context) p.hooks)
  rw [← hordered, runCrafts, exec_bind, exec_told, Craft.exec_invoke_failing hcraft hfails]
    at hcrafts
  rw [run_eq, haccepted]
  simp only [perform, exec_bind, Hook.exec_callBefore_of_quiet hhooks, hcrafts]
  simp only [RunState.tell, htrace, List.nil_append]

end Quiet

theorem mem_crafts_of_mem_ordered {craft : Craft} (h : craft ∈ p.ordered) : craft ∈ p.crafts := by
  obtain ⟨i, -, hi⟩ := List.mem_filterMap.1 h
  exact List.mem_of_getElem? hi

theorem names_unwatched (p : Pipeline) :
    p.unwatched.crafts.map (·.name) = p.crafts.map (·.name) := by
  rw [unwatched, List.map_map]
  rfl

theorem ordered_unwatched (p : Pipeline) :
    p.unwatched.ordered = p.ordered.map Craft.unwatched := by
  simp only [ordered, unwatched, List.map_filterMap, List.getElem?_map]

/-- Hooks that never refuse hear of a run from beginning to end, and the run is what it would be
without them. -/
theorem run_heard (haccepted : Context.ofArgs args (p.crafts.map (·.name)) = .ok context)
    (hhooks : ∀ hook ∈ p.hooks, hook.Quiet)
    (hcrafts : ∀ craft ∈ p.crafts, ∀ hook ∈ craft.hooks, hook.Quiet) :
    p.Heard catalog ⟨context, store, []⟩ (p.run catalog args store) ∧
      (p.run catalog args store).result = (p.unwatched.run catalog args store).result ∧
      (p.run catalog args store).store = (p.unwatched.run catalog args store).store := by
  obtain ⟨visits, s, hvisits, hend⟩ :=
    Visits.exists_of_crafts catalog p.ordered ⟨context, store, []⟩
  have hquiet : ∀ craft ∈ p.ordered, ∀ hook ∈ craft.hooks, hook.Quiet :=
    fun craft hcraft => hcrafts craft (mem_crafts_of_mem_ordered hcraft)
  have haccepted' : Context.ofArgs args (p.unwatched.crafts.map (·.name)) = .ok context := by
    rwa [names_unwatched]
  have hhooks' : ∀ hook ∈ p.unwatched.hooks, hook.Quiet := by simp [unwatched]
  have quiet' : ∀ visit ∈ visits.map Visit.unwatched,
      ∀ hook ∈ visit.craft.hooks, hook.Quiet := by
    simp [Visit.unwatched, Craft.unwatched]
  cases hend with
  | inl hordered =>
      have quiet : ∀ visit ∈ visits, ∀ hook ∈ visit.craft.hooks, hook.Quiet :=
        fun visit hvisit => hquiet visit.craft (hordered ▸ List.mem_map_of_mem hvisit)
      have hordered' : p.unwatched.ordered = (visits.map Visit.unwatched).map (·.craft) := by
        simp [ordered_unwatched, hordered, Visit.unwatched]
      rw [run_completed haccepted hhooks hvisits quiet hordered,
        run_completed haccepted' hhooks' hvisits.unwatched quiet' hordered']
      exact ⟨.completed hvisits hordered, rfl, rfl⟩
  | inr hfailing =>
      obtain ⟨craft, left, e, t, hordered, hfails⟩ := hfailing
      have quiet : ∀ visit ∈ visits, ∀ hook ∈ visit.craft.hooks, hook.Quiet :=
        fun visit hvisit => hquiet visit.craft
          (hordered ▸ List.mem_append_left _ (List.mem_map_of_mem hvisit))
      have hcraft : ∀ hook ∈ craft.hooks, hook.Quiet :=
        hquiet craft (hordered ▸ List.mem_append_right _ List.mem_cons_self)
      have hordered' : p.unwatched.ordered = (visits.map Visit.unwatched).map (·.craft) ++
          craft.unwatched :: left.map Craft.unwatched := by
        simp [ordered_unwatched, hordered, Visit.unwatched]
      have hcraft' : ∀ hook ∈ craft.unwatched.hooks, hook.Quiet := by simp [Craft.unwatched]
      rw [run_failed haccepted hhooks hvisits quiet hordered hcraft hfails,
        run_failed haccepted' hhooks' hvisits.unwatched quiet' hordered' hcraft'
          ((craft.exec_perform_unwatched catalog s).trans hfails)]
      exact ⟨.failed hvisits hordered hfails, rfl, rfl⟩

end Pipeline

namespace Brewery

def malt : Craft where
  id := 0
  name := "malt"
  contract := ⟨[], [⟨"mash", .volatile⟩]⟩
  body := fun _ => .ok [("mash", .string "pale")]
  hooks := [.observer "scale"]

def ferment : Craft where
  id := 1
  name := "ferment"
  contract := ⟨[⟨"mash", .volatile, none⟩, ⟨"yeast", .param, none⟩], [⟨"beer", .volatile⟩]⟩
  body := fun i => return [("beer", ← i.get "mash")]
  hooks := [.observer "probe", .observer "scale"]

def catalog : Catalog :=
  ⟨.empty, [], []⟩

def store : Store :=
  ⟨⟨.empty, []⟩, []⟩

/-- The crafts are listed in the opposite order of their run. -/
def pipeline : Pipeline :=
  ⟨"brew", [ferment, malt], [1, 0], [.observer "log", .observer "bell"]⟩

theorem quiet_observer (name : String) : (Hook.observer name).Quiet :=
  ⟨fun _ _ => rfl, fun _ _ => rfl⟩

end Brewery

open Brewery in
/-- Without yeast the second craft fails. -/
theorem Pipeline.run_heard_brewery :
    pipeline.Heard catalog ⟨.empty, store, []⟩ (pipeline.run catalog [] store) ∧
    (pipeline.run catalog [] store).result = (pipeline.unwatched.run catalog [] store).result ∧
    (pipeline.run catalog [] store).result = .error (.missingParameter "ferment" "yeast") ∧
    (pipeline.run catalog [] store).trace.map (fun n => (n.hook, n.target)) =
      [("log", "brew"), ("bell", "brew"), ("scale", "malt"), ("scale", "malt"),
        ("probe", "ferment"), ("scale", "ferment"), ("probe", "ferment"), ("scale", "ferment"),
        ("log", "brew"), ("bell", "brew")] := by
  have hhooks : ∀ hook ∈ pipeline.hooks, hook.Quiet := by
    simp [pipeline, quiet_observer]
  have hcrafts : ∀ craft ∈ pipeline.crafts, ∀ hook ∈ craft.hooks, hook.Quiet := by
    simp [pipeline, ferment, malt, quiet_observer]
  have hrun : pipeline.Heard catalog ⟨.empty, store, []⟩ (pipeline.run catalog [] store) ∧ _ :=
    run_heard rfl hhooks hcrafts
  exact ⟨hrun.1, hrun.2.1, rfl, rfl⟩

end ArtifactFlow
