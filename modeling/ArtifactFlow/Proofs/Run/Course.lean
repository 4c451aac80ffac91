import ArtifactFlow.Proofs.Pipeline.Construction
import ArtifactFlow.Proofs.Run.Calls

/-!
The course of a run: the calls of its crafts one after another, each with what its function was
called with and what it returned. A run goes on until a call fails, or it comes through all of its
crafts; what it has kept and saved by then is what the calls have returned.
-/

namespace ArtifactFlow

/-- One call of a craft. -/
structure Call where
  craft : Craft
  args : Mapping
  inputs : Inputs
  outputs : Mapping

namespace Call

/-- The volatiles that the call has made. -/
def kept (call : Call) : Mapping :=
  Production.delivered .volatile call.outputs call.craft.contract.produced

/-- The artifacts that the call has made. -/
def saved (call : Call) : List Saving :=
  Production.savings call.args call.outputs call.craft.contract.produced

/-- The call ends well, and takes the run from one state to another. -/
structure Takes (call : Call) (catalog : Catalog) (s t : RunState) : Prop where
  args : call.args = call.craft.namespaceFor s.context []
  gathered : call.craft.inputs catalog s.context s.store call.args = .ok call.inputs
  returned : call.craft.body call.inputs = .ok call.outputs
  finished : Run.exec (call.craft.invoke catalog []) s = (.ok (), t)

variable {catalog : Catalog} {s t : RunState}

theorem exists_takes {craft : Craft} (h : Run.exec (craft.invoke catalog []) s = (.ok (), t)) :
    ∃ call : Call, call.craft = craft ∧ call.Takes catalog s t := by
  obtain ⟨inputs, outputs, hinputs, hbody, -⟩ := Craft.invoke_eq_ok h
  exact ⟨⟨craft, _, inputs, outputs⟩, rfl, rfl, hinputs, hbody, h⟩

theorem Takes.spec {call : Call} (h : call.Takes catalog s t) :
    Production.Present call.outputs call.craft.contract.produced ∧
      s.Moves catalog call.kept call.saved t := by
  obtain ⟨inputs, outputs, hinputs, hbody, present, moves⟩ := Craft.invoke_eq_ok h.finished
  rw [← h.args] at hinputs moves
  obtain rfl := Except.ok.inj (h.gathered.symm.trans hinputs)
  obtain rfl := Except.ok.inj (h.returned.symm.trans hbody)
  exact ⟨present, moves⟩

end Call

/-- Calls that end well, one after another, take a run from one state to another. -/
inductive Course (catalog : Catalog) : RunState → List Call → RunState → Prop where
  | nil (s : RunState) : Course catalog s [] s
  | cons {s t u : RunState} {call : Call} {calls : List Call} :
      call.Takes catalog s t → Course catalog t calls u → Course catalog s (call :: calls) u

namespace Course

variable {catalog : Catalog} {s t u : RunState} {calls others : List Call}

/-- A course can be cut in two anywhere. -/
theorem of_append (h : Course catalog s (calls ++ others) u) :
    ∃ t, Course catalog s calls t ∧ Course catalog t others u := by
  induction calls generalizing s with
  | nil => exact ⟨s, .nil s, h⟩
  | cons call calls ih =>
      cases h with
      | cons hcall hrest =>
          obtain ⟨t, hcalls, hothers⟩ := ih hrest
          exact ⟨t, .cons hcall hcalls, hothers⟩

theorem moves (h : Course catalog s calls t) :
    s.Moves catalog (calls.flatMap Call.kept) (calls.flatMap Call.saved) t := by
  induction h with
  | nil s => exact .of_unchanged rfl rfl
  | cons hcall _ ih =>
      rw [List.flatMap_cons, List.flatMap_cons]
      exact hcall.spec.2.trans ih

theorem present (h : Course catalog s calls t) :
    ∀ call ∈ calls, Production.Present call.outputs call.craft.contract.produced := by
  induction h with
  | nil s => simp
  | cons hcall _ ih => exact List.forall_mem_cons.2 ⟨hcall.spec.1, ih⟩

theorem returned (h : Course catalog s calls t) :
    ∀ call ∈ calls, call.craft.body call.inputs = .ok call.outputs := by
  induction h with
  | nil s => simp
  | cons hcall _ ih => exact List.forall_mem_cons.2 ⟨hcall.returned, ih⟩

end Course

/-- Arguments are refused for the parameters of a craft that are not a mapping. -/
theorem Context.ofArgs_failsWith (args : Mapping) (crafts : List String) :
    FailsWith (fun e => ∃ craft, e = .invalidBlock craft) (ofArgs args crafts) := by
  refine FailsWith.foldlM (fun c entry => ?_) args empty
  simp only [addArgument]
  split
  · split
    · exact failsWith_ok _
    · exact failsWith_error.2 ⟨_, rfl⟩
  · exact failsWith_ok _

/-- A run starts with nothing made. -/
theorem Context.fresh_of_ofArgs {args : Mapping} {crafts : List String} {context : Context}
    (h : ofArgs args crafts = .ok context) : context.volatiles = [] ∧ context.artifacts = [] := by
  have hfold (c : Context) (entries : Mapping)
      (h : entries.foldlM (fun c entry => c.addArgument crafts entry.1 entry.2) c = .ok context) :
      context.volatiles = c.volatiles ∧ context.artifacts = c.artifacts := by
    induction entries generalizing c with
    | nil =>
        cases h
        exact ⟨rfl, rfl⟩
    | cons entry entries ih =>
        obtain ⟨d, hd, hrest⟩ := bind_eq_ok.1 h
        have hsame : d.volatiles = c.volatiles ∧ d.artifacts = c.artifacts := by
          simp only [addArgument] at hd
          grind
        rw [← hsame.1, ← hsame.2]
        exact ih d hrest
  exact hfold empty args h

namespace Pipeline

variable {p : Pipeline} {catalog : Catalog} {args : Mapping} {store : Store}

/-- A run has come this far: its arguments are accepted and no hook has refused at the start, calls
have ended well, and some crafts are left. -/
structure Progress (p : Pipeline) (catalog : Catalog) (args : Mapping) (store : Store)
    (calls : List Call) (left : List Craft) (s : RunState) : Prop where
  course : ∃ context start, Context.ofArgs args (p.crafts.map (·.name)) = .ok context ∧
    Run.exec (Hook.callBefore p.name p.hooks) ⟨context, store, []⟩ = (.ok (), start) ∧
    Course catalog start calls s
  ordered : p.ordered = calls.map (·.craft) ++ left

/-- Every call of a run is one that the run has come to. -/
theorem Progress.before {calls others : List Call} {call : Call} {left : List Craft} {u : RunState}
    (h : p.Progress catalog args store (calls ++ call :: others) left u) :
    ∃ s, p.Progress catalog args store calls (call.craft :: (others.map (·.craft) ++ left)) s ∧
      ∃ t, call.Takes catalog s t := by
  obtain ⟨context, start, hcontext, hbefore, course⟩ := h.course
  obtain ⟨s, hcalls, hothers⟩ := course.of_append
  cases hothers with
  | cons hcall _ =>
      refine ⟨s, ⟨⟨context, start, hcontext, hbefore, hcalls⟩, ?_⟩, _, hcall⟩
      rw [h.ordered, List.map_append, List.map_cons, List.append_assoc, List.cons_append]

theorem course_of_runCrafts {crafts : List Craft} {s t : RunState}
    (h : Run.exec (p.runCrafts catalog crafts) s = (.ok (), t)) :
    ∃ calls, calls.map (·.craft) = crafts ∧ Course catalog s calls t := by
  induction crafts generalizing s with
  | nil =>
      cases h
      exact ⟨[], rfl, .nil _⟩
  | cons craft crafts ih =>
      obtain ⟨⟨⟩, u, hcraft, hrest⟩ := Run.exec_bind_eq_ok.1 h
      obtain ⟨call, rfl, hcall⟩ := Call.exists_takes (Run.exec_told_eq_ok.1 hcraft)
      obtain ⟨calls, rfl, hcalls⟩ := ih hrest
      exact ⟨call :: calls, rfl, .cons hcall hcalls⟩

theorem failing_of_runCrafts {crafts : List Craft} {s t : RunState} {e : Fault}
    (h : Run.exec (p.runCrafts catalog crafts) s = (.error e, t)) :
    ∃ calls craft left u v, crafts = calls.map (·.craft) ++ craft :: left ∧
      Course catalog s calls u ∧ Run.exec (craft.invoke catalog []) u = (.error e, v) ∧
      t = v.tell (Hook.notices p.name (.failed e) p.hooks) := by
  induction crafts generalizing s with
  | nil => cases h
  | cons craft crafts ih =>
      rcases Run.exec_bind_eq_error.1 h with hcraft | ⟨⟨⟩, u, hcraft, hrest⟩
      · obtain ⟨v, hinvoke, rfl⟩ := Run.exec_told_eq_error.1 hcraft
        exact ⟨[], craft, crafts, s, v, rfl, .nil s, hinvoke, rfl⟩
      · obtain ⟨call, rfl, hcall⟩ := Call.exists_takes (Run.exec_told_eq_ok.1 hcraft)
        obtain ⟨calls, next, left, w, v, rfl, hcalls, hinvoke, htold⟩ := ih hrest
        exact ⟨call :: calls, next, left, w, v, rfl, .cons hcall hcalls, hinvoke, htold⟩

/-- A run that is ended is ended by a hook at the start, by a call, or by a hook at the end. -/
theorem stops_of_perform {context : Context} {t : RunState} {e : Fault}
    (hcontext : Context.ofArgs args (p.crafts.map (·.name)) = .ok context)
    (h : Run.exec (p.perform catalog) ⟨context, store, []⟩ = (.error e, t)) :
    Run.exec (Hook.callBefore p.name p.hooks) ⟨context, store, []⟩ = (.error e, t) ∨
      (∃ calls craft left s v, p.Progress catalog args store calls (craft :: left) s ∧
        Run.exec (craft.invoke catalog []) s = (.error e, v) ∧
        t = v.tell (Hook.notices p.name (.failed e) p.hooks)) ∨
      ∃ calls s, p.Progress catalog args store calls [] s ∧
        Run.exec (Hook.callAfter p.name p.hooks) s = (.error e, t) := by
  rcases Run.exec_bind_eq_error.1 h with hbefore | ⟨⟨⟩, start, hbefore, h⟩
  · exact .inl hbefore
  · rcases Run.exec_bind_eq_error.1 h with hcrafts | ⟨⟨⟩, s, hcrafts, hafter⟩
    · obtain ⟨calls, craft, left, u, v, hordered, hcourse, hinvoke, htold⟩ :=
        failing_of_runCrafts hcrafts
      exact .inr (.inl ⟨calls, craft, left, u, v,
        ⟨⟨context, start, hcontext, hbefore, hcourse⟩, hordered⟩, hinvoke, htold⟩)
    · obtain ⟨calls, hcalls, hcourse⟩ := course_of_runCrafts hcrafts
      refine .inr (.inr ⟨calls, s, ⟨⟨context, start, hcontext, hbefore, hcourse⟩, ?_⟩, hafter⟩)
      rw [hcalls, List.append_nil]

/-- The ways in which a run can end, with what it comes to and the store that it leaves. -/
inductive Ending (p : Pipeline) (catalog : Catalog) (args : Mapping) (store : Store) :
    Except Fault Outcome → Store → Prop where
  /-- Its arguments are refused. -/
  | arguments {craft : String} : Ending p catalog args store (.error (.invalidBlock craft)) store
  /-- A hook of the pipeline refuses at the start. -/
  | start {source : Failure} :
      Ending p catalog args store (.error (Hook.refusal p.name source)) store
  /-- A call fails. -/
  | call {calls : List Call} {craft : Craft} {left : List Craft} {s t : RunState} {e : Fault} :
      p.Progress catalog args store calls (craft :: left) s →
      Run.exec (craft.invoke catalog []) s = (.error e, t) →
      Ending p catalog args store (.error e) t.store
  /-- A hook of the pipeline refuses at the end. -/
  | finish {calls : List Call} {s : RunState} {source : Failure} :
      p.Progress catalog args store calls [] s →
      Ending p catalog args store (.error (Hook.refusal p.name source)) s.store
  /-- All crafts have been called. -/
  | completed {calls : List Call} {s : RunState} :
      p.Progress catalog args store calls [] s →
      Ending p catalog args store (.ok s.context.outcome) s.store

theorem run_ending (p : Pipeline) (catalog : Catalog) (args : Mapping) (store : Store) :
    p.Ending catalog args store (p.run catalog args store).result
      (p.run catalog args store).store := by
  rw [run_eq]
  cases hcontext : Context.ofArgs args (p.crafts.map (·.name)) with
  | error e =>
      obtain ⟨craft, rfl⟩ := Context.ofArgs_failsWith _ _ e hcontext
      exact .arguments
  | ok context =>
      have hbegin := Hook.watches_callBefore p.name p.hooks
      have hend := Hook.watches_callAfter p.name p.hooks
      dsimp only
      rcases hexec : Run.exec (p.perform catalog) ⟨context, store, []⟩ with ⟨e | ⟨⟩, t⟩ <;>
        dsimp only
      · rcases stops_of_perform hcontext hexec with hbefore | hcall | hafter
        · obtain ⟨source, rfl⟩ := hbegin.refused hbefore
          rw [(hbegin.unchanged hbefore).2]
          exact .start
        · obtain ⟨calls, craft, left, s, v, hprogress, hinvoke, rfl⟩ := hcall
          exact .call (t := v) hprogress hinvoke
        · obtain ⟨calls, s, hprogress, hafter⟩ := hafter
          obtain ⟨source, rfl⟩ := hend.refused hafter
          rw [(hend.unchanged hafter).2]
          exact .finish hprogress
      · obtain ⟨⟨⟩, start, hbefore, h⟩ := Run.exec_bind_eq_ok.1 hexec
        obtain ⟨⟨⟩, s, hcrafts, hafter⟩ := Run.exec_bind_eq_ok.1 h
        obtain ⟨calls, hcalls, hcourse⟩ := course_of_runCrafts hcrafts
        obtain ⟨hlast, hstore⟩ := hend.unchanged hafter
        rw [hlast, hstore]
        refine .completed ⟨⟨context, start, hcontext, hbefore, hcourse⟩, ?_⟩
        rw [hcalls, List.append_nil]

end Pipeline
end ArtifactFlow
