import ArtifactFlow.Craft.Context
import ArtifactFlow.Storage.Store

/-!
Hooks watch a run from outside. They are called before and after a craft or a pipeline, with the
context of that moment, and may refuse to go on; when something fails they are told of it. What
hooks were told is kept as the trace of a run.
-/

namespace ArtifactFlow

structure Hook where
  name : String
  /-- Called before a target starts. -/
  before : String → Context → Result Unit
  /-- Called after a target has finished. -/
  after : String → Context → Result Unit

def Hook.observer (name : String) : Hook :=
  ⟨name, fun _ _ => .ok (), fun _ _ => .ok ()⟩

/-- What a hook is told. -/
inductive Moment where
  | before (context : Context)
  | after (context : Context)
  | failed (fault : Fault)

structure Notice where
  hook : String
  target : String
  moment : Moment

/-- What changes while crafts run. The trace is in the order of the calls. -/
structure RunState where
  context : Context
  store : Store
  trace : List Notice

/-- A part of a run. What it did before a fault stays done. -/
abbrev Run := ExceptT Fault (StateM RunState)

namespace Run

def note (n : Notice) : Run Unit :=
  modify fun s => { s with trace := s.trace ++ [n] }

/-- A fault ends the part of the run. -/
def ofExcept : Except Fault α → Run α
  | .ok a => pure a
  | .error e => throw e

end Run

namespace Hook

/-- The refusal of a hook counts as a failure of the target. -/
def refusal (target : String) (source : Failure) : Fault :=
  .craftFailed target (.within "run hook failed" source)

/-- Calls hooks before a target starts, up to the first that refuses. -/
def callBefore (target : String) : List Hook → Run Unit
  | [] => pure ()
  | hook :: rest => do
      let context := (← get).context
      Run.note ⟨hook.name, target, .before context⟩
      Run.ofExcept ((hook.before target context).mapError (refusal target))
      callBefore target rest

/-- Calls hooks after a target has finished, up to the first that refuses. -/
def callAfter (target : String) : List Hook → Run Unit
  | [] => pure ()
  | hook :: rest => do
      let context := (← get).context
      Run.note ⟨hook.name, target, .after context⟩
      Run.ofExcept ((hook.after target context).mapError (refusal target))
      callAfter target rest

def callFailed (target : String) (fault : Fault) : List Hook → Run Unit
  | [] => pure ()
  | hook :: rest => do
      Run.note ⟨hook.name, target, .failed fault⟩
      callFailed target fault rest

end Hook
end ArtifactFlow
