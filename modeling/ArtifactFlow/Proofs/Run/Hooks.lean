import ArtifactFlow.Proofs.Run.Exec

/-!
Hooks of a call. They may watch it and may end it, but they change neither context nor store, and
those that are told of a failure change nothing about it.
-/

namespace ArtifactFlow

/-- The state after more notices, which changes nothing else. -/
def RunState.tell (s : RunState) (told : List Notice) : RunState :=
  { s with trace := s.trace ++ told }

theorem RunState.tell_nil (s : RunState) : s.tell [] = s := by
  rw [tell, List.append_nil]

theorem RunState.tell_tell (s : RunState) (told more : List Notice) :
    (s.tell told).tell more = s.tell (told ++ more) := by
  simp only [tell, List.append_assoc]

namespace Run

theorem exec_note (n : Notice) (s : RunState) : exec (note n) s = (.ok (), s.tell [n]) := rfl

/-- The part of a run changes neither context nor store, and fails as if a hook of the target
refused. -/
structure Watches (target : String) (x : Run α) : Prop where
  unchanged : ∀ {s r t}, exec x s = (r, t) → t.context = s.context ∧ t.store = s.store
  refused : ∀ {s e t}, exec x s = (.error e, t) → ∃ source, e = Hook.refusal target source

namespace Watches

variable {target : String}

theorem pure (a : α) : Watches target (Pure.pure a) where
  unchanged h := by
    cases h
    exact ⟨rfl, rfl⟩
  refused h := by cases h

theorem get : Watches target (MonadStateOf.get : Run RunState) where
  unchanged h := by
    cases h
    exact ⟨rfl, rfl⟩
  refused h := by cases h

theorem note (n : Notice) : Watches target (Run.note n) where
  unchanged h := by
    cases h
    exact ⟨rfl, rfl⟩
  refused h := by cases h

theorem answer (x : Result α) :
    Watches target (ofExcept (x.mapError (Hook.refusal target))) where
  unchanged h := by
    rw [exec_ofExcept] at h
    cases h
    exact ⟨rfl, rfl⟩
  refused h := by
    rw [exec_ofExcept] at h
    cases x with
    | ok a => cases h
    | error source =>
        cases h
        exact ⟨source, rfl⟩

theorem bind {x : Run α} {f : α → Run β} (hx : Watches target x)
    (hf : ∀ a, Watches target (f a)) : Watches target (x >>= f) where
  unchanged {s r u} h := by
    cases r with
    | ok b =>
        obtain ⟨a, t, hfirst, hrest⟩ := exec_bind_eq_ok.1 h
        obtain ⟨hcontext, hstore⟩ := (hf a).unchanged hrest
        rw [hcontext, hstore]
        exact hx.unchanged hfirst
    | error e =>
        rcases exec_bind_eq_error.1 h with hfirst | ⟨a, t, hfirst, hrest⟩
        · exact hx.unchanged hfirst
        · obtain ⟨hcontext, hstore⟩ := (hf a).unchanged hrest
          rw [hcontext, hstore]
          exact hx.unchanged hfirst
  refused h := by
    rcases exec_bind_eq_error.1 h with hfirst | ⟨a, t, -, hrest⟩
    · exact hx.refused hfirst
    · exact (hf a).refused hrest

end Watches
end Run

namespace Hook

open Run

theorem watches_callBefore (target : String) (hooks : List Hook) :
    Watches target (callBefore target hooks) := by
  induction hooks with
  | nil => exact .pure ()
  | cons hook rest ih =>
      exact .bind .get fun s => .bind (.note _) fun _ => .bind (.answer _) fun _ => ih

theorem watches_callAfter (target : String) (hooks : List Hook) :
    Watches target (callAfter target hooks) := by
  induction hooks with
  | nil => exact .pure ()
  | cons hook rest ih =>
      exact .bind .get fun s => .bind (.note _) fun _ => .bind (.answer _) fun _ => ih

theorem watches_callFailed (target : String) (e : Fault) (hooks : List Hook) :
    Watches target (callFailed target e hooks) := by
  induction hooks with
  | nil => exact .pure ()
  | cons hook rest ih => exact .bind (.note _) fun _ => ih

/-- What hooks are told at one moment of a target, in their order. -/
def notices (target : String) (moment : Moment) (hooks : List Hook) : List Notice :=
  hooks.map fun hook => ⟨hook.name, target, moment⟩

theorem exec_callFailed (target : String) (e : Fault) (hooks : List Hook) (s : RunState) :
    exec (callFailed target e hooks) s = (.ok (), s.tell (notices target (.failed e) hooks)) := by
  induction hooks generalizing s with
  | nil => rw [callFailed, exec_pure, notices, List.map_nil, RunState.tell_nil]
  | cons hook rest ih =>
      rw [callFailed, exec_bind, exec_note]
      dsimp only
      rw [ih, RunState.tell_tell]
      rfl

end Hook

namespace Run

variable {x : Run α} {target : String} {hooks : List Hook} {s u : RunState}

/-- Hooks are told of a failure, and it stays the failure that it is. -/
theorem exec_told (x : Run α) (target : String) (hooks : List Hook) (s : RunState) :
    exec (tryCatch x fun e => do Hook.callFailed target e hooks; throw e) s =
      match exec x s with
      | (.ok a, t) => (.ok a, t)
      | (.error e, t) => (.error e, t.tell (Hook.notices target (.failed e) hooks)) := by
  rw [exec_tryCatch]
  rcases exec x s with ⟨_ | _, t⟩
  · simp only [exec_bind, Hook.exec_callFailed, exec_throw]
  · rfl

theorem exec_told_eq_ok {a : α} :
    exec (tryCatch x fun e => do Hook.callFailed target e hooks; throw e) s = (.ok a, u) ↔
      exec x s = (.ok a, u) := by
  rw [exec_told]
  rcases exec x s with ⟨_ | _, t⟩ <;> simp

theorem exec_told_eq_error {e : Fault} :
    exec (tryCatch x fun e => do Hook.callFailed target e hooks; throw e) s = (.error e, u) ↔
      ∃ t, exec x s = (.error e, t) ∧ u = t.tell (Hook.notices target (.failed e) hooks) := by
  rw [exec_told]
  rcases exec x s with ⟨fault | _, t⟩
  · simp only [Prod.mk.injEq, Except.error.injEq]
    constructor
    · rintro ⟨rfl, rfl⟩
      exact ⟨t, ⟨rfl, rfl⟩, rfl⟩
    · rintro ⟨_, ⟨rfl, rfl⟩, rfl⟩
      exact ⟨rfl, rfl⟩
  · simp

end Run

end ArtifactFlow
