import ArtifactFlow.Expression.Evaluate

/-!
Rendering of texts and values. Static placeholders are bound when a catalog is loaded, dynamic ones
and expressions when it is used; what a pass does not bind stays as it stands, for a later pass.
-/

namespace ArtifactFlow

/-- Which placeholders a pass binds. -/
inductive RenderMode where
  /-- Static ones alone. -/
  | staticOnly
  /-- Static and dynamic ones, and expressions if they are enabled. -/
  | call (expressions : Bool)
  deriving DecidableEq, Repr

def RenderMode.binder (mode : RenderMode) (scope : Scope) : Expression.Binder := fun p =>
  match p.kind, mode with
  | .static, _ => return some (← scope.config.resolve p.body scope.artifact)
  | .dynamic, .call _ => return some (← resolveArgument scope.args p.body scope.artifact)
  | .expression, .call true => return some (← Expression.evaluate scope p.body)
  | _, _ => return none

def renderText (scope : Scope) (mode : RenderMode) (text : String) : Except Fault Value :=
  Expression.renderText (mode.binder scope) text

mutual

/-- Renders every text in a value, the values of mappings and the items of lists included. -/
def renderValue (scope : Scope) (mode : RenderMode) : Value → Except Fault Value
  | .string text => renderText scope mode text
  | .list items => return .list (← renderItems scope mode items)
  | .mapping fields => return .mapping (← renderFields scope mode fields)
  | v => .ok v
  termination_by structural v => v

def renderItems (scope : Scope) (mode : RenderMode) : List Value → Except Fault (List Value)
  | [] => .ok []
  | v :: rest => return (← renderValue scope mode v) :: (← renderItems scope mode rest)
  termination_by structural items => items

def renderFields (scope : Scope) (mode : RenderMode) :
    List (String × Value) → Except Fault (List (String × Value))
  | [] => .ok []
  | (key, v) :: rest =>
      return (key, ← renderValue scope mode v) :: (← renderFields scope mode rest)
  termination_by structural fields => fields

end

end ArtifactFlow
