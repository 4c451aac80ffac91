import ArtifactFlow.Catalog.Basic
import ArtifactFlow.Craft.Basic

/-!
One call of a craft inside a run: its inputs are gathered, its function is called, and its outputs
are saved or kept. Nothing is written before the function has returned exactly the declared
outputs and every volatile among them is new.
-/

namespace ArtifactFlow

/-- What is left of a run: how it ended, the store, and what hooks were told. -/
structure Report (α : Type) where
  result : Except Fault α
  store : Store
  trace : List Notice

namespace Craft

/-- The arguments of a call. Defaults give way to shared arguments, these to arguments for the
craft alone, and these to the overrides of the call. -/
def namespaceFor (craft : Craft) (context : Context) (overrides : Mapping) : Mapping :=
  let shared := Mapping.replace craft.contract.paramDefaults context.shared
  let own := match context.block? craft.name with
    | some fields => Mapping.replace shared fields
    | none => shared
  Mapping.replace own overrides

def input (craft : Craft) (catalog : Catalog) (context : Context) (store : Store)
    (args : Mapping) (r : Requirement) : Except Fault Value :=
  match r.kind with
  | .artifact =>
      match catalog.load r.name args store, r.default? with
      | .ok v, _ => .ok v
      | .error _, some v => .ok v
      | .error e, none => .error e
  | .volatile =>
      match context.volatile? r.name with
      | some v => .ok v
      | none => .error (.unresolvedVolatile craft.name r.name)
  | .param =>
      match Fields.get? r.name args with
      | some v => .ok v
      | none => .error (.missingParameter craft.name r.name)

def inputs (craft : Craft) (catalog : Catalog) (context : Context) (store : Store)
    (args : Mapping) : Except Fault Inputs :=
  craft.contract.required.foldlM (fun acc r => do
    return acc.add r (← craft.input catalog context store args r)) (Inputs.empty craft.name)

/-- The names of the first list that are not in the second one, ascending. -/
def namesMissing (expected present : List String) : List String :=
  sortedNames (expected.filter fun n => !present.contains n)

/-- What is wrong with the names of returned outputs, if anything is. -/
def mismatch? (craft : Craft) (returned : List String) : Option Fault :=
  let declared := craft.contract.producedNames
  let lines (label : String) (names : List String) : List String :=
    if names.isEmpty then [] else [label ++ Text.joinWith ", " names]
  match lines "missing " (namesMissing declared returned) ++
      lines "unexpected " (namesMissing returned declared) with
  | [] => none
  | reasons => some (.outputMismatch craft.name (Text.joinWith "; " reasons))

def outputs (craft : Craft) (inputs : Inputs) : Except Fault Mapping := do
  let outputs ← (craft.body inputs).mapError (.craftFailed craft.name)
  match craft.mismatch? (Fields.keys outputs) with
  | some e => .error e
  | none => .ok outputs

/-- Every volatile of the contract must be new. -/
def checkVolatiles (craft : Craft) (context : Context) : Except Fault Unit :=
  (craft.contract.productionsOf .volatile).forM (context.checkFree craft.name)

def deliver (craft : Craft) (catalog : Catalog) (args outputs : Mapping) (p : Production) :
    Run Unit := do
  let value := (Fields.get? p.name outputs).getD .null
  match p.kind with
  | .artifact =>
      let s ← get
      let (result, store) := catalog.save p.name value args s.store
      set { s with store }
      Run.ofExcept result
      modify fun s => { s with context := s.context.recordArtifact p.name }
  | .volatile =>
      let s ← get
      let context ← Run.ofExcept (s.context.insertVolatile craft.name p.name value)
      set { s with context }

/-- Delivers outputs in the order of their declaration. -/
def deliverAll (craft : Craft) (catalog : Catalog) (args outputs : Mapping) :
    List Production → Run Unit
  | [] => pure ()
  | p :: rest => do
      craft.deliver catalog args outputs p
      craft.deliverAll catalog args outputs rest

/-- Everything about a call up to its outputs. Neither context nor store change by it. -/
def compute (craft : Craft) (catalog : Catalog) (context : Context) (store : Store)
    (args : Mapping) : Except Fault Mapping := do
  let inputs ← craft.inputs catalog context store args
  let outputs ← craft.outputs inputs
  craft.checkVolatiles context
  return outputs

def perform (craft : Craft) (catalog : Catalog) (overrides : Mapping) : Run Unit := do
  let s ← get
  let args := craft.namespaceFor s.context overrides
  let outputs ← Run.ofExcept (craft.compute catalog s.context s.store args)
  craft.deliverAll catalog args outputs craft.contract.produced

/-- A call with the craft's hooks around it. A hook that refuses at the start ends the call without
further notice. -/
def invoke (craft : Craft) (catalog : Catalog) (overrides : Mapping) : Run Unit := do
  Hook.callBefore craft.name craft.hooks
  tryCatch (craft.perform catalog overrides) fun e => do
    Hook.callFailed craft.name e craft.hooks
    throw e
  Hook.callAfter craft.name craft.hooks

/-- A call outside of any pipeline, with arguments of its own. -/
def call (craft : Craft) (catalog : Catalog) (args : Mapping) (store : Store) : Report Outcome :=
  match ((craft.invoke catalog args).run).run ⟨.empty, store, []⟩ with
  | (.ok (), s) => ⟨.ok s.context.outcome, s.store, s.trace⟩
  | (.error e, s) => ⟨.error e, s.store, s.trace⟩

end Craft
end ArtifactFlow
