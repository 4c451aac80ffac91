import ArtifactFlow.Catalog.Basic
import ArtifactFlow.Proofs.Except

/-!
Which faults an operation can end with. Whatever is rendered or evaluated, a fault that comes of it
is about placeholders; a catalog adds that it does not know an artifact or its type, and that an
adapter failed.
-/

namespace ArtifactFlow

namespace Fault

/-- The fault is about the form of a placeholder, or about what it refers to. -/
def OfPlaceholders : Fault → Prop
  | .malformedPlaceholder .. | .unresolvedStatic .. | .unresolvedDynamic ..
  | .unresolvedExpression .. => True
  | _ => False

/-- The fault is about an artifact of a catalog. -/
def OfCatalog : Fault → Prop
  | .unknownArtifact .. | .unknownAdapter .. | .adapter .. => True
  | f => f.OfPlaceholders

theorem OfPlaceholders.ofCatalog {f : Fault} (h : f.OfPlaceholders) : f.OfCatalog := by
  unfold OfCatalog
  split <;> trivial

end Fault

open Fault

theorem Segment.parse_failsWith (text : String) : FailsWith OfPlaceholders (parse text) := by
  simp only [parse]
  cases ofChars text.toList with
  | ok segments => exact failsWith_ok _
  | error flaw => exact failsWith_error.2 trivial

theorem StaticConfig.resolve_failsWith (config : StaticConfig) (path artifact : String) :
    FailsWith OfPlaceholders (config.resolve path artifact) := by
  rw [resolve]
  cases config.get? path with
  | some v => exact failsWith_ok v
  | none => exact failsWith_error.2 trivial

theorem resolveArgument_failsWith (args : Mapping) (name artifact : String) :
    FailsWith OfPlaceholders (resolveArgument args name artifact) := by
  rw [resolveArgument]
  cases Mapping.lookup? args name with
  | some v => exact failsWith_ok v
  | none => exact failsWith_error.2 trivial

namespace Expression

theorem concat_failsWith {bind : Binder} (h : ∀ p, FailsWith OfPlaceholders (bind p))
    (segments : List Segment) : FailsWith OfPlaceholders (concat bind segments) := by
  induction segments with
  | nil => exact failsWith_ok _
  | cons segment rest ih =>
      cases segment with
      | literal text => exact ih.bind fun _ => failsWith_ok _
      | placeholder p => exact (h p).bind fun _ => ih.bind fun _ => failsWith_ok _

theorem renderText_failsWith {bind : Binder} (h : ∀ p, FailsWith OfPlaceholders (bind p))
    (text : String) : FailsWith OfPlaceholders (renderText bind text) := by
  refine (Segment.parse_failsWith text).bind fun segments => ?_
  split
  · exact (h _).bind fun _ => failsWith_ok _
  · exact (concat_failsWith h segments).bind fun _ => failsWith_ok _

section Resolving

variable {resolve : Placeholder → Except Fault Value}
  (h : ∀ p, FailsWith OfPlaceholders (resolve p))
include h

theorem substitutePass_failsWith (done : String) (segments : List Segment) :
    FailsWith OfPlaceholders (substitutePass resolve done segments) := by
  induction segments generalizing done with
  | nil => exact failsWith_ok _
  | cons segment rest ih =>
      cases segment with
      | literal text => exact ih _
      | placeholder p =>
          refine (h p).bind fun v => ?_
          split
          · exact failsWith_ok _
          · exact ih _

theorem substitute_failsWith (expression : String) (passes : Nat) (text : String) :
    FailsWith OfPlaceholders (substitute resolve expression passes text) := by
  induction passes generalizing text with
  | zero =>
      rw [substitute.eq_def]
      refine (Segment.parse_failsWith text).bind fun segments => ?_
      split
      · exact failsWith_ok _
      · exact failsWith_error.2 trivial
  | succ passes ih =>
      rw [substitute.eq_def]
      refine (Segment.parse_failsWith text).bind fun segments => ?_
      split
      · exact failsWith_ok _
      · refine (substitutePass_failsWith h "" segments).bind fun next => ?_
        cases next with
        | none => exact failsWith_ok _
        | some next =>
            dsimp only
            split
            · exact failsWith_error.2 trivial
            · exact ih next

end Resolving

theorem applyIndex_failsWith (expression head : String) (v : Value) (i : Index) :
    FailsWith OfPlaceholders (applyIndex expression head v i) := by
  unfold applyIndex
  grind [failsWith_ok, failsWith_error, Fault.OfPlaceholders]

theorem applyChain_failsWith (scope : Scope) (expression text : String) :
    FailsWith OfPlaceholders (applyChain scope expression text) := by
  rw [applyChain]
  cases Chain.parse text.toList with
  | error flaw => exact failsWith_error.2 trivial
  | ok chain =>
      dsimp only
      split
      · exact failsWith_error.2 trivial
      · exact FailsWith.foldlM (applyIndex_failsWith expression chain.head) _ _

theorem settle_failsWith {render : String → Except Fault Value}
    (h : ∀ s, FailsWith OfPlaceholders (render s)) (expression : String) (passes : Nat)
    (v : Value) : FailsWith OfPlaceholders (settle render expression passes v) := by
  induction passes generalizing v with
  | zero =>
      rw [settle.eq_def]
      split
      · split
        · exact failsWith_ok _
        · exact failsWith_error.2 trivial
      · exact failsWith_ok _
  | succ passes ih =>
      rw [settle.eq_def]
      split
      · split
        · exact failsWith_ok _
        · refine (h _).bind fun rendered => ?_
          split
          · split
            · exact failsWith_error.2 trivial
            · exact ih _
          · exact failsWith_ok _
      · exact failsWith_ok _

theorem resolve_failsWith (scope : Scope) {expression : String → Except Fault Value}
    (h : ∀ body, FailsWith OfPlaceholders (expression body)) (p : Placeholder) :
    FailsWith OfPlaceholders (resolve scope expression p) := by
  rw [resolve]
  cases p.kind with
  | static => exact scope.config.resolve_failsWith p.body scope.artifact
  | dynamic => exact resolveArgument_failsWith scope.args p.body scope.artifact
  | expression => exact h p.body

theorem evaluateWithin_failsWith (scope : Scope) (levels : Nat) (body : String) :
    FailsWith OfPlaceholders (evaluateWithin scope levels body) := by
  induction levels generalizing body with
  | zero => exact failsWith_error.2 trivial
  | succ levels ih =>
      have hresolve := resolve_failsWith scope ih
      refine (substitute_failsWith hresolve body maxRounds body).bind fun text => ?_
      cases text with
      | none => exact failsWith_ok _
      | some text =>
          refine (applyChain_failsWith scope body (Text.trimString text)).bind fun v => ?_
          refine settle_failsWith (fun s => ?_) body maxRounds v
          exact renderText_failsWith (fun p => (hresolve p).bind fun _ => failsWith_ok _) s

end Expression

theorem RenderMode.binder_failsWith (mode : RenderMode) (scope : Scope) (p : Placeholder) :
    FailsWith OfPlaceholders (mode.binder scope p) := by
  simp only [binder]
  split
  · exact (scope.config.resolve_failsWith p.body scope.artifact).bind fun _ => failsWith_ok _
  · exact (resolveArgument_failsWith scope.args p.body scope.artifact).bind fun _ => failsWith_ok _
  · exact (Expression.evaluateWithin_failsWith scope _ p.body).bind fun _ => failsWith_ok _
  · exact failsWith_ok _

section Rendering

variable (scope : Scope) (mode : RenderMode)

mutual

theorem renderValue_failsWith : ∀ v : Value, FailsWith OfPlaceholders (renderValue scope mode v)
  | .string text => Expression.renderText_failsWith (mode.binder_failsWith scope) text
  | .list items => (renderItems_failsWith items).bind fun _ => failsWith_ok _
  | .mapping fields => (renderFields_failsWith fields).bind fun _ => failsWith_ok _
  | .null | .bool _ | .int _ | .float _ => failsWith_ok _
  termination_by structural v => v

theorem renderItems_failsWith :
    ∀ items : List Value, FailsWith OfPlaceholders (renderItems scope mode items)
  | [] => failsWith_ok _
  | v :: rest => (renderValue_failsWith v).bind fun _ =>
      (renderItems_failsWith rest).bind fun _ => failsWith_ok _
  termination_by structural items => items

theorem renderFields_failsWith :
    ∀ fields : List (String × Value), FailsWith OfPlaceholders (renderFields scope mode fields)
  | [] => failsWith_ok _
  | (_, v) :: rest => (renderValue_failsWith v).bind fun _ =>
      (renderFields_failsWith rest).bind fun _ => failsWith_ok _
  termination_by structural fields => fields

end

end Rendering

namespace Catalog

variable (c : Catalog)

theorem resolveField_failsWith (d : Declaration) (artifact : String) (args : Mapping)
    (field : String) (value : Value) :
    FailsWith OfPlaceholders (c.resolveField d artifact args field value) := by
  have h := renderValue_failsWith ⟨c.config, args, artifact⟩ (.call (d.isExpression field)) value
  rw [resolveField]
  split
  · exact failsWith_ok _
  · split
    · exact failsWith_ok _
    · exact failsWith_error.2 trivial
  · rename_i e _ heq
    exact failsWith_error.2 (h e heq)

theorem resolveFields_failsWith (d : Declaration) (artifact : String) (args fields : Mapping) :
    FailsWith OfPlaceholders (c.resolveFields d artifact args fields) := by
  induction fields with
  | nil => exact failsWith_ok _
  | cons entry rest ih =>
      exact (c.resolveField_failsWith d artifact args entry.1 entry.2).bind fun _ =>
        ih.bind fun _ => failsWith_ok _

theorem resolve_failsWith (name : String) (args : Mapping) :
    FailsWith OfCatalog (c.resolve name args) := by
  have hlookup : FailsWith OfCatalog (c.lookup name) := by
    rw [lookup]
    cases c.declaration? name with
    | some d => exact failsWith_ok d
    | none => exact failsWith_error.2 trivial
  refine hlookup.bind fun d => ?_
  refine ((c.resolveFields_failsWith d name args d.extra).mono fun _ => ?_).bind fun _ =>
    failsWith_ok _
  exact OfPlaceholders.ofCatalog

theorem prepare_failsWith (name : String) (args : Mapping) :
    FailsWith OfCatalog (c.prepare name args) := by
  refine (c.resolve_failsWith name args).bind fun d => ?_
  refine FailsWith.bind ?_ fun _ => failsWith_ok _
  rw [adapterFor]
  cases Fields.get? d.artifactType c.adapters with
  | some adapter => exact failsWith_ok adapter
  | none => exact failsWith_error.2 trivial

theorem adapted_failsWith (r : Request) (x : Result α) :
    FailsWith OfCatalog (x.mapError (adapterFault r)) := by
  cases x with
  | ok a => exact failsWith_ok a
  | error e => exact failsWith_error.2 trivial

theorem load_failsWith (name : String) (args : Mapping) (s : Store) :
    FailsWith OfCatalog (c.load name args s) :=
  (c.prepare_failsWith name args).bind fun (_, request) => adapted_failsWith request _

theorem save_failsWith (name : String) (payload : Value) (args : Mapping) (s : Store) :
    FailsWith OfCatalog (c.save name payload args s).1 := by
  have h := c.prepare_failsWith name args
  rw [save]
  cases hprepare : c.prepare name args with
  | error e => exact failsWith_error.2 (h e hprepare)
  | ok found => exact adapted_failsWith found.2 _

end Catalog
end ArtifactFlow
