import ArtifactFlow.Proofs.Run.Hooks

/-!
What hooks are told. They are told of a moment one after another, up to the first that refuses, and
apart from refusals a run does not depend on what they were told: crafts neither read the trace nor
add to it.
-/

namespace ArtifactFlow

namespace Run

/-- The part of a run does not touch the trace. -/
def Silent (x : Run α) : Prop :=
  ∀ (s : RunState) (trace : List Notice),
    exec x { s with trace } = ((exec x s).1, { (exec x s).2 with trace })

namespace Silent

variable {x : Run α} {s t : RunState} {r : Except Fault α}

theorem trace_eq (h : Silent x) (hx : exec x s = (r, t)) : t.trace = s.trace := by
  have hsame := h s s.trace
  change exec x s = _ at hsame
  rw [hx] at hsame
  exact congrArg (fun result => result.2.trace) hsame

theorem exec_tell (h : Silent x) (hx : exec x s = (r, t)) (told : List Notice) :
    exec x (s.tell told) = (r, t.tell told) := by
  rw [RunState.tell, h s, hx, RunState.tell, h.trace_eq hx]

theorem exec_untell (h : Silent x) {told : List Notice} (hx : exec x (s.tell told) = (r, t)) :
    ∃ u, exec x s = (r, u) ∧ t = u.tell told := by
  rcases hsame : exec x s with ⟨q, u⟩
  rw [h.exec_tell hsame told] at hx
  cases hx
  exact ⟨u, rfl, rfl⟩

end Silent
end Run

namespace Craft

open Run

variable (craft : Craft) (catalog : Catalog)

theorem silent_deliver (args outputs : Mapping) (p : Production) :
    Silent (craft.deliver catalog args outputs p) := by
  intro s trace
  obtain ⟨name, kind⟩ := p
  cases kind with
  | artifact =>
      rw [exec_deliver_artifact, exec_deliver_artifact]
      rcases catalog.save name ((Fields.get? name outputs).getD .null) args s.store with
        ⟨_ | _, store⟩ <;> rfl
  | volatile =>
      rw [exec_deliver_volatile, exec_deliver_volatile]
      cases s.context.insertVolatile craft.name name ((Fields.get? name outputs).getD .null) <;>
        rfl

theorem silent_deliverAll (args outputs : Mapping) (ps : List Production) :
    Silent (craft.deliverAll catalog args outputs ps) :=
  fun s trace => commutes_deliverAll
    (fun p s => silent_deliver craft catalog args outputs p s trace) ps s

theorem silent_perform (overrides : Mapping) : Silent (craft.perform catalog overrides) := by
  intro s trace
  rw [exec_perform, exec_perform]
  cases craft.compute catalog s.context s.store (craft.namespaceFor s.context overrides) with
  | error e => rfl
  | ok outputs => exact craft.silent_deliverAll catalog _ outputs craft.contract.produced s trace

end Craft

namespace Hook

open Run

/-- What asking hooks about a moment comes to, and what they are told by it: each is told and then
answers, up to the first that refuses. -/
def consult (target : String) (moment : Moment) (ask : Hook → Result Unit) :
    List Hook → Except Fault Unit × List Notice
  | [] => (.ok (), [])
  | hook :: rest =>
      match ask hook with
      | .ok () =>
          let (r, told) := consult target moment ask rest
          (r, ⟨hook.name, target, moment⟩ :: told)
      | .error source => (.error (refusal target source), [⟨hook.name, target, moment⟩])

variable {hooks : List Hook}

theorem exec_callBefore (target : String) (hooks : List Hook) (s : RunState) :
    exec (callBefore target hooks) s =
      ((consult target (.before s.context) (·.before target s.context) hooks).1,
        s.tell (consult target (.before s.context) (·.before target s.context) hooks).2) := by
  induction hooks generalizing s with
  | nil => exact congrArg (Prod.mk _) s.tell_nil.symm
  | cons hook rest ih =>
      simp only [callBefore, exec_bind, exec_get, exec_note, exec_ofExcept, consult]
      cases hook.before target s.context with
      | ok _ =>
          change exec (callBefore target rest) (s.tell [⟨hook.name, target, .before s.context⟩]) = _
          rw [ih, RunState.tell_tell]
          rfl
      | error source => rfl

theorem exec_callAfter (target : String) (hooks : List Hook) (s : RunState) :
    exec (callAfter target hooks) s =
      ((consult target (.after s.context) (·.after target s.context) hooks).1,
        s.tell (consult target (.after s.context) (·.after target s.context) hooks).2) := by
  induction hooks generalizing s with
  | nil => exact congrArg (Prod.mk _) s.tell_nil.symm
  | cons hook rest ih =>
      simp only [callAfter, exec_bind, exec_get, exec_note, exec_ofExcept, consult]
      cases hook.after target s.context with
      | ok _ =>
          change exec (callAfter target rest) (s.tell [⟨hook.name, target, .after s.context⟩]) = _
          rw [ih, RunState.tell_tell]
          rfl
      | error source => rfl

section Consult

variable {target : String} {moment : Moment} {ask : Hook → Result Unit}

theorem consult_of_quiet (quiet : ∀ hook ∈ hooks, ask hook = .ok ()) :
    consult target moment ask hooks = (.ok (), notices target moment hooks) := by
  induction hooks with
  | nil => rfl
  | cons hook rest ih =>
      obtain ⟨hhook, hrest⟩ := List.forall_mem_cons.1 quiet
      simp only [consult, hhook, ih hrest, notices, List.map_cons]

/-- The hooks that are told are those up to the one that refuses, or all. -/
theorem exists_consult_eq (target : String) (moment : Moment) (ask : Hook → Result Unit)
    (hooks : List Hook) : ∃ asked, asked <+: hooks ∧
      (consult target moment ask hooks).2 = notices target moment asked := by
  induction hooks with
  | nil => exact ⟨[], List.prefix_refl [], rfl⟩
  | cons hook rest ih =>
      simp only [consult]
      cases ask hook with
      | ok _ =>
          obtain ⟨asked, hasked, htold⟩ := ih
          refine ⟨hook :: asked, (List.prefix_cons_inj hook).2 hasked, ?_⟩
          simp only [htold, notices, List.map_cons]
      | error source => exact ⟨[hook], ⟨rest, rfl⟩, rfl⟩

theorem exists_refusing {e : Fault} (h : (consult target moment ask hooks).1 = .error e) :
    ∃ hook ∈ hooks, ∃ source, ask hook = .error source ∧ e = refusal target source := by
  induction hooks with
  | nil => cases h
  | cons hook rest ih =>
      simp only [consult] at h
      cases hask : ask hook with
      | ok _ =>
          rw [hask] at h
          obtain ⟨other, hother, hrefuses⟩ := ih h
          exact ⟨other, List.mem_cons_of_mem hook hother, hrefuses⟩
      | error source =>
          rw [hask] at h
          exact ⟨hook, List.mem_cons_self, source, hask, (Except.error.inj h).symm⟩

end Consult
end Hook
end ArtifactFlow
