import ArtifactFlow.Proofs.Run.Course

/-!
Where a run comes to. A run that has come some way is what is left of it from there, so its report
is that of the rest. To every craft of its order a run does come, unless its arguments are refused,
a hook of the pipeline refuses at the start, or the call of an earlier craft fails.
-/

namespace ArtifactFlow.Pipeline

variable {p : Pipeline} {catalog : Catalog} {args : Mapping} {store : Store}
  {calls : List Call} {left before after : List Craft} {craft : Craft} {s t : RunState} {e : Fault}

/-- The report of a run that has come to a state with some crafts left. -/
def resume (p : Pipeline) (catalog : Catalog) (left : List Craft) (s : RunState) :
    Report Outcome :=
  match Run.exec (do p.runCrafts catalog left; Hook.callAfter p.name p.hooks) s with
  | (.ok (), t) => ⟨.ok t.context.outcome, t.store, t.trace⟩
  | (.error e, t) => ⟨.error e, t.store, t.trace⟩

/-- After calls that end well the crafts that are left are run. -/
theorem exec_runCrafts_of_course (h : Course catalog s calls t) (left : List Craft) :
    Run.exec (p.runCrafts catalog (calls.map (·.craft) ++ left)) s =
      Run.exec (p.runCrafts catalog left) t := by
  induction h with
  | nil => rfl
  | @cons s t u call calls hcall _ ih =>
      rw [List.map_cons, List.cons_append, runCrafts, Run.exec_bind, Run.exec_told,
        hcall.finished]
      exact ih

theorem Progress.run_eq (h : p.Progress catalog args store calls left s) :
    p.run catalog args store = p.resume catalog left s := by
  obtain ⟨context, start, hcontext, hbefore, course⟩ := h.course
  have hrest : Run.exec (p.perform catalog) ⟨context, store, []⟩ =
      Run.exec (do p.runCrafts catalog left; Hook.callAfter p.name p.hooks) s := by
    rw [perform, Run.exec_bind, hbefore]
    dsimp only
    rw [Run.exec_bind, Run.exec_bind, h.ordered, exec_runCrafts_of_course course]
  rw [Pipeline.run_eq, hcontext]
  dsimp only
  rw [hrest]
  rfl

/-- A run fails as the call of the craft does to which it has come. -/
theorem Progress.result_eq_error (h : p.Progress catalog args store calls (craft :: left) s)
    (failed : Run.exec (craft.invoke catalog []) s = (.error e, t)) :
    (p.run catalog args store).result = .error e := by
  rw [h.run_eq, resume, runCrafts]
  simp only [Run.exec_bind, Run.exec_told, failed]

/-- Why a run does not come past some crafts. -/
inductive Stopped (p : Pipeline) (catalog : Catalog) (args : Mapping) (store : Store)
    (before : List Craft) : Fault → Prop where
  /-- Its arguments are refused. -/
  | arguments {e : Fault} : Context.ofArgs args (p.crafts.map (·.name)) = .error e →
      Stopped p catalog args store before e
  /-- A hook of the pipeline refuses at the start. -/
  | start {context : Context} {s : RunState} {e : Fault} :
      Context.ofArgs args (p.crafts.map (·.name)) = .ok context →
      Run.exec (Hook.callBefore p.name p.hooks) ⟨context, store, []⟩ = (.error e, s) →
      Stopped p catalog args store before e
  /-- The call of one of the crafts fails. -/
  | call {calls : List Call} {craft : Craft} {left : List Craft} {s t : RunState} {e : Fault} :
      p.Progress catalog args store calls (craft :: left) s → calls.length < before.length →
      Run.exec (craft.invoke catalog []) s = (.error e, t) →
      Stopped p catalog args store before e

/-- A run comes to each of its crafts, or it is stopped before and fails. -/
theorem exists_progress_or_stopped (catalog : Catalog) (args : Mapping) (store : Store)
    (h : p.ordered = before ++ after) :
    (∃ calls s, calls.map (·.craft) = before ∧ p.Progress catalog args store calls after s) ∨
      ∃ e, p.Stopped catalog args store before e ∧
        (p.run catalog args store).result = .error e := by
  cases hcontext : Context.ofArgs args (p.crafts.map (·.name)) with
  | error e =>
      refine .inr ⟨e, .arguments hcontext, ?_⟩
      rw [Pipeline.run_eq, hcontext]
  | ok context =>
      rcases hbefore : Run.exec (Hook.callBefore p.name p.hooks) ⟨context, store, []⟩ with
        ⟨e | ⟨⟩, start⟩
      · refine .inr ⟨e, .start hcontext hbefore, ?_⟩
        rw [Pipeline.run_eq, hcontext, perform]
        simp only [Run.exec_bind, hbefore]
      · rcases hcrafts : Run.exec (p.runCrafts catalog before) start with ⟨e | ⟨⟩, s⟩
        · obtain ⟨calls, craft, left, u, v, rfl, course, failed, -⟩ := failing_of_runCrafts hcrafts
          have progress : p.Progress catalog args store calls (craft :: (left ++ after)) u :=
            ⟨⟨context, start, hcontext, hbefore, course⟩, by simpa using h⟩
          refine .inr ⟨e, .call progress ?_ failed, progress.result_eq_error failed⟩
          simp
        · obtain ⟨calls, rfl, course⟩ := course_of_runCrafts hcrafts
          exact .inl ⟨calls, s, rfl, ⟨context, start, hcontext, hbefore, course⟩, h⟩

end ArtifactFlow.Pipeline
