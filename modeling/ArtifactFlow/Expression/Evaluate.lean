import ArtifactFlow.Expression.Chain
import ArtifactFlow.Placeholder.Segment
import ArtifactFlow.StaticConfig
import ArtifactFlow.Value.Text

/-!
Evaluation of lookup expressions. The placeholders of a body are substituted, pass by pass, until
none is left; the text that remains is an index chain, whose name is looked up in the arguments and
then in the configuration; a result that is a text with placeholders is rendered again until it has
none. Nesting and passes are bounded, so that an expression that refers to itself fails.

A missing value is not an error everywhere: an index into `null` is `null`, and so is a lookup
whose key is `null`.
-/

namespace ArtifactFlow

namespace Expression

/-- Bound on the nesting of expressions, and on the passes over one text. -/
def maxRounds : Nat := 8

def exhausted (expression : String) : Fault :=
  .unresolvedExpression expression
    ("no fixed point reached after " ++ toString maxRounds ++ " rounds")

def circular (expression : String) : Fault :=
  .unresolvedExpression expression "placeholders resolve to themselves"

/-- How the placeholders of a text are bound: to a value, or not at all, so that the placeholder
stays as it stands. -/
abbrev Binder := Placeholder → Except Fault (Option Value)

/-- The text of segments, with bound placeholders replaced by the text of their values. -/
def concat (bind : Binder) : List Segment → Except Fault String
  | [] => .ok ""
  | .literal text :: rest => return text ++ (← concat bind rest)
  | .placeholder p :: rest => do
      let piece := match ← bind p with
        | some v => v.stringify
        | none => p.raw
      return piece ++ (← concat bind rest)

/-- Renders a text. A text that is one placeholder takes its value as it is; otherwise the values
become part of the text. -/
def renderText (bind : Binder) (text : String) : Except Fault Value := do
  match ← Segment.parse text with
  | [.placeholder p] => return (← bind p).getD (.string text)
  | segments => return .string (← concat bind segments)

/-- One pass of substitution over the segments of a text; `done` is the text that has been put
together so far. `none` means that an index key is `null`: a placeholder behind an opening bracket
has no value. -/
def substitutePass (resolve : Placeholder → Except Fault Value) (done : String) :
    List Segment → Except Fault (Option String)
  | [] => .ok (some done)
  | .literal text :: rest => substitutePass resolve (done ++ text) rest
  | .placeholder p :: rest => do
      let v ← resolve p
      if v.isNull && done.contains '[' then return none
      else substitutePass resolve (done ++ v.stringify) rest

/-- Substitutes placeholders until none is left, in at most `passes` passes. -/
def substitute (resolve : Placeholder → Except Fault Value) (expression : String) (passes : Nat)
    (text : String) : Except Fault (Option String) := do
  let segments ← Segment.parse text
  if !segments.any Segment.isPlaceholder then return some text
  else
    match passes with
    | 0 => throw (exhausted expression)
    | passes + 1 =>
        match ← substitutePass resolve "" segments with
        | none => return none
        | some next =>
            if next = text then throw (circular expression)
            else substitute resolve expression passes next

def applyIndex (expression head : String) (v : Value) (i : Index) : Except Fault Value :=
  let fail (reason : String) : Except Fault Value := .error (.unresolvedExpression expression reason)
  match v, i with
  | .null, _ => .ok .null
  | .mapping fields, .quoted key | .mapping fields, .bare key =>
      match Fields.get? key fields with
      | some v => .ok v
      | none => fail ("key '" ++ key ++ "' not found in '" ++ head ++ "'")
  | .list items, .bare key =>
      match listPosition? key with
      | none => fail ("'" ++ key ++ "' is not a list position")
      | some position =>
          match items[position]? with
          | some v => .ok v
          | none =>
              fail ("position " ++ toString position ++ " is out of range in '" ++ head ++ "'")
  | v, _ => fail ("cannot index into " ++ v.kindName)

def applyChain (scope : Scope) (expression text : String) : Except Fault Value := do
  match Chain.parse text.toList with
  | .error flaw => throw (.unresolvedExpression expression flaw.message)
  | .ok chain =>
      match Mapping.lookup? scope.args chain.head <|> scope.config.get? chain.head with
      | none => throw (.unresolvedExpression expression ("'" ++ chain.head ++ "' is not defined"))
      | some v => chain.indices.foldlM (applyIndex expression chain.head) v

/-- Renders a result again for as long as it is a text with placeholders, at most `passes` times. -/
def settle (render : String → Except Fault Value) (expression : String) :
    Nat → Value → Except Fault Value
  | passes, .string s =>
      if !hasPlaceholders s then .ok (.string s)
      else
        match passes with
        | 0 => .error (exhausted expression)
        | passes + 1 => do
            match ← render s with
            | .string t =>
                if t = s then throw (circular expression)
                else settle render expression passes (.string t)
            | v => return v
  | _, v => .ok v

/-- The value that a placeholder has where all kinds are bound; `expression` evaluates the bodies
of expressions. -/
def resolve (scope : Scope) (expression : String → Except Fault Value) (p : Placeholder) :
    Except Fault Value :=
  match p.kind with
  | .static => scope.config.resolve p.body scope.artifact
  | .dynamic => resolveArgument scope.args p.body scope.artifact
  | .expression => expression p.body

/-- Evaluates the body of an expression in which expressions may be nested `levels` deep. -/
def evaluateWithin (scope : Scope) : (levels : Nat) → (body : String) → Except Fault Value
  | 0, body => .error (exhausted body)
  | levels + 1, body => do
      let resolve := resolve scope (evaluateWithin scope levels)
      match ← substitute resolve body maxRounds body with
      | none => return .null
      | some text =>
          let v ← applyChain scope body (Text.trimString text)
          settle (renderText fun p => return some (← resolve p)) body maxRounds v

def evaluate (scope : Scope) (body : String) : Except Fault Value :=
  evaluateWithin scope maxRounds body

end Expression
end ArtifactFlow
