import ArtifactFlow.Pipeline.Basic

/-!
Parts of a run as functions of the state. Each operation of crafts and pipelines has one equation
here; where no hooks are attached nothing of them remains.
-/

namespace ArtifactFlow

namespace Run

/-- What a part of a run comes to from a state, and the state that it leaves. -/
def exec (x : Run α) (s : RunState) : Except Fault α × RunState :=
  x.run.run s

/-- The state that a part of a run leaves, unless it fails. -/
def completed? (x : Run α) (s : RunState) : Option RunState :=
  match exec x s with
  | (.ok _, t) => some t
  | (.error _, _) => none

@[simp] theorem exec_pure (a : α) (s : RunState) : exec (pure a) s = (.ok a, s) := rfl

@[simp] theorem exec_bind (x : Run α) (f : α → Run β) (s : RunState) :
    exec (x >>= f) s = match exec x s with
      | (.ok a, t) => exec (f a) t
      | (.error e, t) => (.error e, t) := by
  have h : exec (x >>= f) s = (ExceptT.bindCont f (exec x s).1).run (exec x s).2 := rfl
  rw [h]
  rcases exec x s with ⟨_ | _, t⟩ <;> rfl

theorem exec_bind_eq_ok {x : Run α} {f : α → Run β} {s u : RunState} {b : β} :
    exec (x >>= f) s = (.ok b, u) ↔
      ∃ a t, exec x s = (.ok a, t) ∧ exec (f a) t = (.ok b, u) := by
  rw [exec_bind]
  rcases exec x s with ⟨_ | a, t⟩ <;> simp [and_assoc]

theorem exec_bind_eq_error {x : Run α} {f : α → Run β} {s u : RunState} {e : Fault} :
    exec (x >>= f) s = (.error e, u) ↔ exec x s = (.error e, u) ∨
      ∃ a t, exec x s = (.ok a, t) ∧ exec (f a) t = (.error e, u) := by
  rw [exec_bind]
  rcases exec x s with ⟨_ | a, t⟩ <;> simp [and_assoc]

@[simp] theorem exec_get (s : RunState) : exec get s = (.ok s, s) := rfl

@[simp] theorem exec_set (s t : RunState) : exec (set t) s = (.ok ⟨⟩, t) := rfl

@[simp] theorem exec_modify (f : RunState → RunState) (s : RunState) :
    exec (modify f) s = (.ok ⟨⟩, f s) := rfl

@[simp] theorem exec_throw (e : Fault) (s : RunState) :
    exec (throw e : Run α) s = (.error e, s) := rfl

@[simp] theorem exec_ofExcept (x : Except Fault α) (s : RunState) :
    exec (ofExcept x) s = (x, s) := by
  cases x <;> rfl

@[simp] theorem exec_tryCatch (x : Run α) (handle : Fault → Run α) (s : RunState) :
    exec (tryCatch x handle) s = match exec x s with
      | (.ok a, t) => (.ok a, t)
      | (.error e, t) => exec (handle e) t := by
  have h : exec (tryCatch x handle) s = StateT.run (ExceptT.tryCatch x handle).run s := rfl
  have hx : StateT.run x s = exec x s := rfl
  rw [h, ExceptT.tryCatch, ExceptT.run_mk, StateT.run_bind, hx]
  rcases exec x s with ⟨_ | _, t⟩ <;> rfl

/-- A change to the state can be made before or after the part of a run, which ends alike. -/
def Commutes (change : RunState → RunState) (x : Run α) : Prop :=
  ∀ s, exec x (change s) = ((exec x s).1, change (exec x s).2)

end Run

namespace Craft

variable (craft : Craft) (catalog : Catalog)

theorem exec_deliver_artifact (args outputs : Mapping) (name : String) (s : RunState) :
    Run.exec (craft.deliver catalog args outputs ⟨name, .artifact⟩) s =
      match catalog.save name ((Fields.get? name outputs).getD .null) args s.store with
      | (.ok (), store) => (.ok (), { s with store, context := s.context.recordArtifact name })
      | (.error e, store) => (.error e, { s with store }) := by
  simp only [deliver, Run.exec_bind, Run.exec_get, Run.exec_set, Run.exec_ofExcept,
    Run.exec_modify]
  rcases catalog.save name _ args s.store with ⟨_ | _, store⟩ <;> rfl

theorem exec_deliver_volatile (args outputs : Mapping) (name : String) (s : RunState) :
    Run.exec (craft.deliver catalog args outputs ⟨name, .volatile⟩) s =
      match s.context.insertVolatile craft.name name ((Fields.get? name outputs).getD .null) with
      | .ok context => (.ok (), { s with context })
      | .error e => (.error e, s) := by
  simp only [deliver, Run.exec_bind, Run.exec_get, Run.exec_set, Run.exec_ofExcept]
  cases s.context.insertVolatile craft.name name _ <;> rfl

@[simp] theorem exec_deliverAll_nil (args outputs : Mapping) (s : RunState) :
    Run.exec (craft.deliverAll catalog args outputs []) s = (.ok (), s) := rfl

theorem exec_deliverAll_cons (args outputs : Mapping) (p : Production) (rest : List Production)
    (s : RunState) : Run.exec (craft.deliverAll catalog args outputs (p :: rest)) s =
      match Run.exec (craft.deliver catalog args outputs p) s with
      | (.ok _, t) => Run.exec (craft.deliverAll catalog args outputs rest) t
      | (.error e, t) => (.error e, t) := by
  simp only [deliverAll, Run.exec_bind]
  rcases Run.exec (craft.deliver catalog args outputs p) s with ⟨_ | _, t⟩ <;> rfl

variable {craft catalog} in
theorem commutes_deliverAll {change : RunState → RunState} {args outputs : Mapping}
    (h : ∀ p, Run.Commutes change (craft.deliver catalog args outputs p)) (ps : List Production) :
    Run.Commutes change (craft.deliverAll catalog args outputs ps) := by
  induction ps with
  | nil => exact fun s => rfl
  | cons p ps ih =>
      intro s
      rw [exec_deliverAll_cons, exec_deliverAll_cons, h p s]
      rcases Run.exec (craft.deliver catalog args outputs p) s with ⟨_ | _, t⟩
      · rfl
      · exact ih t

theorem exec_perform (overrides : Mapping) (s : RunState) :
    Run.exec (craft.perform catalog overrides) s =
      match craft.compute catalog s.context s.store (craft.namespaceFor s.context overrides) with
      | .ok outputs => Run.exec (craft.deliverAll catalog
          (craft.namespaceFor s.context overrides) outputs craft.contract.produced) s
      | .error e => (.error e, s) := by
  simp only [perform, Run.exec_bind, Run.exec_get, Run.exec_ofExcept]
  cases craft.compute catalog s.context s.store _ <;> rfl

/-- The state after a call, unless it fails. -/
def after? (s : RunState) : Option RunState :=
  Run.completed? (craft.perform catalog []) s

/-- The state after calls one after another, unless one of them fails. -/
def afterAll? (catalog : Catalog) (crafts : List Craft) (start : Option RunState) :
    Option RunState :=
  crafts.foldl (fun state craft => state.bind (craft.after? catalog)) start

theorem afterAll?_cons (catalog : Catalog) (craft : Craft) (rest : List Craft)
    (start : Option RunState) : afterAll? catalog (craft :: rest) start =
      afterAll? catalog rest (start.bind (craft.after? catalog)) := rfl

@[simp] theorem afterAll?_none (catalog : Catalog) (crafts : List Craft) :
    afterAll? catalog crafts none = none := by
  induction crafts with
  | nil => rfl
  | cons craft rest ih => exact ih

/-- Without hooks a call is what it performs. -/
theorem exec_invoke {craft : Craft} (hooks : craft.hooks = []) (overrides : Mapping)
    (s : RunState) : Run.exec (craft.invoke catalog overrides) s =
      Run.exec (craft.perform catalog overrides) s := by
  simp only [invoke, hooks, Hook.callBefore, Hook.callFailed, Hook.callAfter, Run.exec_bind,
    Run.exec_pure, Run.exec_tryCatch, Run.exec_throw]
  rcases Run.exec (craft.perform catalog overrides) s with ⟨_ | _, t⟩ <;> rfl

theorem call_eq (craft : Craft) (catalog : Catalog) (args : Mapping) (store : Store) :
    craft.call catalog args store =
      match Run.exec (craft.invoke catalog args) ⟨.empty, store, []⟩ with
      | (.ok (), s) => ⟨.ok s.context.outcome, s.store, s.trace⟩
      | (.error e, s) => ⟨.error e, s.store, s.trace⟩ := rfl

end Craft

namespace Pipeline

variable {p : Pipeline} (catalog : Catalog)

theorem exec_runCrafts_cons (hooks : p.hooks = []) (craft : Craft) (rest : List Craft)
    (s : RunState) : Run.exec (p.runCrafts catalog (craft :: rest)) s =
      match Run.exec (craft.invoke catalog []) s with
      | (.ok _, t) => Run.exec (p.runCrafts catalog rest) t
      | (.error e, t) => (.error e, t) := by
  simp only [runCrafts, hooks, Hook.callFailed, Run.exec_bind, Run.exec_pure, Run.exec_tryCatch,
    Run.exec_throw]
  rcases Run.exec (craft.invoke catalog []) s with ⟨_ | _, t⟩ <;> rfl

theorem exec_perform (hooks : p.hooks = []) (s : RunState) :
    Run.exec (p.perform catalog) s = Run.exec (p.runCrafts catalog p.ordered) s := by
  simp only [perform, hooks, Hook.callBefore, Hook.callAfter, Run.exec_bind, Run.exec_pure]
  rcases Run.exec (p.runCrafts catalog p.ordered) s with ⟨_ | _, t⟩ <;> rfl

/-- Without any hooks a run is its calls one after another. -/
theorem completed?_runCrafts (hooks : p.hooks = []) {crafts : List Craft}
    (quiet : ∀ c ∈ crafts, c.hooks = []) (s : RunState) :
    Run.completed? (p.runCrafts catalog crafts) s = Craft.afterAll? catalog crafts (some s) := by
  induction crafts generalizing s with
  | nil => rfl
  | cons craft rest ih =>
      obtain ⟨hcraft, hrest⟩ := List.forall_mem_cons.1 quiet
      change _ = Craft.afterAll? catalog rest (craft.after? catalog s)
      rw [Run.completed?, exec_runCrafts_cons catalog hooks, Craft.exec_invoke catalog hcraft,
        Craft.after?, Run.completed?]
      rcases Run.exec (craft.perform catalog []) s with ⟨e | _, t⟩
      · exact (Craft.afterAll?_none catalog rest).symm
      · exact ih hrest t

theorem run_eq (p : Pipeline) (catalog : Catalog) (args : Mapping) (store : Store) :
    p.run catalog args store = match Context.ofArgs args (p.crafts.map (·.name)) with
      | .error e => ⟨.error e, store, []⟩
      | .ok context =>
          match Run.exec (p.perform catalog) ⟨context, store, []⟩ with
          | (.ok (), s) => ⟨.ok s.context.outcome, s.store, s.trace⟩
          | (.error e, s) => ⟨.error e, s.store, s.trace⟩ := rfl

end Pipeline
end ArtifactFlow
