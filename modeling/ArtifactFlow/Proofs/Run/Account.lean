import ArtifactFlow.Proofs.Run.Course
import ArtifactFlow.Proofs.Run.Trouble
import Mathlib

/-!
What a run of a pipeline amounts to. No two crafts make the same name, so that what the calls have
kept and saved by some point is what their contracts declare, in order and without repetition; a
volatile is never made twice.
-/

namespace ArtifactFlow

theorem Contract.productionsOf_sublist (c : Contract) (kind : OutputKind) :
    (c.productionsOf kind).Sublist c.producedNames :=
  List.filter_sublist.map _

namespace Call

variable {call : Call}
  (present : Production.Present call.outputs call.craft.contract.produced)
include present

theorem keys_kept : Fields.keys call.kept = call.craft.contract.productionsOf .volatile :=
  Production.keys_delivered present

theorem names_saved :
    call.saved.map (·.name) = call.craft.contract.productionsOf .artifact := by
  rw [Contract.productionsOf, ← Production.keys_delivered present, saved, Production.savings,
    List.map_map, Fields.keys]
  rfl

end Call

namespace Pipeline

variable {p : Pipeline} {catalog : Catalog} {args : Mapping} {store : Store}
  {calls : List Call} {left : List Craft} {craft : Craft} {s : RunState}

/-- No two crafts of a pipeline make outputs of one name. -/
theorem WellOrdered.nodup_productions (h : p.WellOrdered) (kind : OutputKind) :
    (p.ordered.flatMap (·.contract.productionsOf kind)).Nodup := by
  have hall : (p.ordered.flatMap (·.contract.producedNames)).Nodup := by
    obtain ⟨g, hg, -⟩ := h.order_eq
    exact (h.ordered_perm.flatMap_right _).nodup_iff.2 (Graph.ofCrafts_eq_ok.1 hg).1
  exact hall.sublist (.flatMap_right _ fun c _ => c.contract.productionsOf_sublist kind)

/-- What the run has kept and saved so far is what its calls have made. -/
theorem Progress.moves (h : p.Progress catalog args store calls left s) :
    ∃ context, Context.ofArgs args (p.crafts.map (·.name)) = .ok context ∧
      RunState.Moves catalog (calls.flatMap Call.kept) (calls.flatMap Call.saved)
        ⟨context, store, []⟩ s := by
  obtain ⟨context, start, hcontext, hbefore, hcourse⟩ := h.course
  obtain ⟨hsame, hstore⟩ := (Hook.watches_callBefore p.name p.hooks).unchanged hbefore
  exact ⟨context, hcontext, (RunState.Moves.of_unchanged hsame hstore).trans hcourse.moves⟩

theorem Progress.present (h : p.Progress catalog args store calls left s) :
    ∀ call ∈ calls, Production.Present call.outputs call.craft.contract.produced := by
  obtain ⟨context, start, -, -, hcourse⟩ := h.course
  exact hcourse.present

theorem Progress.volatiles (h : p.Progress catalog args store calls left s) :
    s.context.volatiles = calls.flatMap Call.kept := by
  obtain ⟨context, hcontext, moves⟩ := h.moves
  rw [moves.volatiles, (Context.fresh_of_ofArgs hcontext).1, List.nil_append]

theorem Progress.keys_volatiles (h : p.Progress catalog args store calls left s) :
    Fields.keys s.context.volatiles =
      (calls.map (·.craft)).flatMap (·.contract.productionsOf .volatile) := by
  rw [h.volatiles, Fields.keys, List.map_flatMap, List.flatMap_map]
  exact List.flatMap_congr fun call hcall => Call.keys_kept (h.present call hcall)

theorem Progress.names_saved (h : p.Progress catalog args store calls left s) :
    (calls.flatMap Call.saved).map (·.name) =
      (calls.map (·.craft)).flatMap (·.contract.productionsOf .artifact) := by
  rw [List.map_flatMap, List.flatMap_map]
  exact List.flatMap_congr fun call hcall => Call.names_saved (h.present call hcall)

section WellOrdered

variable (ordered : p.WellOrdered) (h : p.Progress catalog args store calls left s)
include ordered h

/-- The crafts of the pipeline are those that have been called and those that are left. -/
theorem Progress.mem_crafts_iff :
    craft ∈ p.crafts ↔ craft ∈ calls.map (·.craft) ∨ craft ∈ left := by
  rw [← ordered.ordered_perm.mem_iff, h.ordered, List.mem_append]

theorem Progress.mem_crafts {call : Call} (hcall : call ∈ calls) : call.craft ∈ p.crafts :=
  (h.mem_crafts_iff ordered).2 (.inl (List.mem_map_of_mem hcall))

theorem Progress.nodup_productions (kind : OutputKind) :
    ((calls.map (·.craft)).flatMap (·.contract.productionsOf kind) ++
      left.flatMap (·.contract.productionsOf kind)).Nodup := by
  have hnodup := ordered.nodup_productions kind
  rwa [h.ordered, List.flatMap_append] at hnodup

/-- A volatile that is to be made by a craft that is left is not there yet. -/
theorem Progress.fresh (hcraft : craft ∈ left) {name : String}
    (hname : ⟨name, .volatile⟩ ∈ craft.contract.produced) : s.context.volatile? name = none := by
  rw [Context.volatile?, Fields.get?_eq_none_iff, h.keys_volatiles]
  intro hmade
  refine List.disjoint_of_nodup_append (h.nodup_productions ordered .volatile) hmade ?_
  exact List.mem_flatMap.2 ⟨craft, hcraft, Contract.mem_productionsOf.2 hname⟩

/-- A volatile has the value that the function of its producer has returned. -/
theorem Progress.volatile?_eq {call : Call} (hcall : call ∈ calls) {name : String}
    (hname : ⟨name, .volatile⟩ ∈ call.craft.contract.produced) :
    ∃ value, Fields.get? name call.outputs = some value ∧
      s.context.volatile? name = some value := by
  obtain ⟨value, hvalue⟩ := h.present call hcall _ hname
  have distinct : Fields.Distinct s.context.volatiles := by
    rw [Fields.Distinct, h.keys_volatiles]
    exact (h.nodup_productions ordered .volatile).sublist (List.sublist_append_left _ _)
  refine ⟨value, hvalue, (Fields.get?_eq_some_iff distinct).2 ?_⟩
  rw [h.volatiles]
  exact List.mem_flatMap.2 ⟨call, hcall, Production.mem_delivered_iff.2 ⟨hname, hvalue⟩⟩

theorem Progress.artifacts :
    s.context.artifacts = (calls.map (·.craft)).flatMap (·.contract.productionsOf .artifact) := by
  obtain ⟨context, hcontext, moves⟩ := h.moves
  have hempty := (Context.fresh_of_ofArgs hcontext).2
  have hnodup := (h.nodup_productions ordered .artifact).sublist (List.sublist_append_left _ _)
  rw [← h.names_saved] at hnodup ⊢
  have hartifacts := moves.artifacts (by simpa [hempty] using hnodup)
  simpa [hempty] using hartifacts

end WellOrdered

/-- A run that fails was refused its arguments, was ended by a hook, or has come to a craft that has
trouble of its own. -/
theorem WellOrdered.run_eq_error (ordered : p.WellOrdered) {e : Fault}
    (h : (p.run catalog args store).result = .error e) :
    (∃ craft, e = .invalidBlock craft) ∨ (∃ target source, e = Hook.refusal target source) ∨
      ∃ calls craft left s, p.Progress catalog args store calls (craft :: left) s ∧
        craft.Trouble catalog s e := by
  have ending := p.run_ending catalog args store
  generalize (p.run catalog args store).result = result at h ending
  generalize (p.run catalog args store).store = final at ending
  cases ending with
  | arguments =>
      obtain rfl := Except.error.inj h
      exact .inl ⟨_, rfl⟩
  | start =>
      obtain rfl := Except.error.inj h
      exact .inr (.inl ⟨_, _, rfl⟩)
  | @call calls craft left s t _ progress hinvoke =>
      obtain rfl := Except.error.inj h
      have hcraft := (progress.mem_crafts_iff ordered).2 (.inr List.mem_cons_self)
      rcases Craft.trouble_of_invoke (ordered.composable.made_once craft hcraft) hinvoke with
        ⟨source, rfl⟩ | trouble
      · exact .inr (.inl ⟨_, _, rfl⟩)
      · exact .inr (.inr ⟨_, _, _, _, progress, trouble⟩)
  | finish progress =>
      obtain rfl := Except.error.inj h
      exact .inr (.inl ⟨_, _, rfl⟩)
  | completed progress => cases h

/-- What a craft makes as a volatile is new when the run comes to it, and nothing else of a run
fails with a collision. -/
theorem WellOrdered.ne_volatileCollision (ordered : p.WellOrdered) (name volatile : String) :
    (p.run catalog args store).result ≠ .error (.volatileCollision name volatile) := by
  intro h
  rcases ordered.run_eq_error h with
    ⟨_, he⟩ | ⟨_, _, he⟩ | ⟨calls, craft, left, s, progress, trouble⟩
  · cases he
  · cases he
  · cases trouble with
    | input hr hinput =>
        rcases Craft.input_eq_error hinput with hcatalog | ⟨-, -, he⟩ | ⟨-, he⟩
        · exact hcatalog
        · cases he
        · cases he
    | collision hname hpresent => exact hpresent (progress.fresh ordered List.mem_cons_self hname)
    | saving hcatalog => exact hcatalog

/-- What a run that succeeded has done, call by call. -/
structure Account (p : Pipeline) (catalog : Catalog) (args : Mapping) (store : Store)
    (calls : List Call) (outcome : Outcome) (final : Store) : Prop where
  progress : ∃ s, p.Progress catalog args store calls [] s
  returned : ∀ call ∈ calls, call.craft.body call.inputs = .ok call.outputs
  artifacts : outcome.artifacts = p.ordered.flatMap (·.contract.productionsOf .artifact)
  once : outcome.artifacts.Nodup
  names_saved : (calls.flatMap Call.saved).map (·.name) = outcome.artifacts
  payloads : ∀ call ∈ calls, ∀ x ∈ call.saved, Fields.get? x.name call.outputs = some x.payload
  saves : catalog.Saves (calls.flatMap Call.saved) store final
  volatiles : Fields.keys outcome.volatiles =
    p.ordered.flatMap (·.contract.productionsOf .volatile)
  values : ∀ call ∈ calls, ∀ name, ⟨name, .volatile⟩ ∈ call.craft.contract.produced →
    ∃ value, Fields.get? name call.outputs = some value ∧
      Fields.get? name outcome.volatiles = some value

theorem WellOrdered.account (ordered : p.WellOrdered) {outcome : Outcome}
    (h : (p.run catalog args store).result = .ok outcome) : ∃ calls,
      p.Account catalog args store calls outcome (p.run catalog args store).store := by
  have ending := p.run_ending catalog args store
  generalize (p.run catalog args store).result = result at h ending
  generalize (p.run catalog args store).store = final at ending ⊢
  cases ending with
  | arguments => cases h
  | start => cases h
  | call progress hinvoke => cases h
  | finish progress => cases h
  | @completed calls s progress =>
      obtain rfl := Except.ok.inj h
      obtain ⟨context, start, -, -, course⟩ := id progress.course
      obtain ⟨context, -, moves⟩ := progress.moves
      have hcalls : calls.map (·.craft) = p.ordered := by
        rw [progress.ordered, List.append_nil]
      have hwritten := progress.artifacts ordered
      rw [hcalls] at hwritten
      refine ⟨calls, ⟨s, progress⟩, course.returned, hwritten, ?once, ?names_saved, ?payloads,
        moves.saves, ?volatiles, ?values⟩
      case once =>
        rw [Context.outcome, hwritten]
        exact ordered.nodup_productions .artifact
      case names_saved => rw [progress.names_saved, hcalls, Context.outcome, hwritten]
      case payloads =>
        intro call hcall x hx
        obtain ⟨⟨name, payload⟩, hentry, rfl⟩ := List.mem_map.1 hx
        exact (Production.mem_delivered_iff.1 hentry).2
      case volatiles => rw [Context.outcome, progress.keys_volatiles, hcalls]
      case values =>
        intro call hcall name hname
        exact progress.volatile?_eq ordered hcall hname

/-- A run never makes a volatile twice. A run that succeeds has called all crafts in order; it has
written what they declare as artifacts and kept what they declare as volatiles, in this order and
each once, as their functions returned it. -/
theorem Built.run_account (built : p.Built) (catalog : Catalog) (args : Mapping) (store : Store) :
    (∀ name volatile,
      (p.run catalog args store).result ≠ .error (.volatileCollision name volatile)) ∧
    ∀ outcome, (p.run catalog args store).result = .ok outcome →
      ∃ calls, p.Account catalog args store calls outcome (p.run catalog args store).store :=
  ⟨built.wellOrdered.ne_volatileCollision, fun _ => built.wellOrdered.account⟩

end Pipeline

namespace Bakery

def mill : Craft where
  id := 0
  name := "mill"
  contract := ⟨[], [⟨"flour", .artifact⟩, ⟨"bran", .volatile⟩]⟩
  body := fun _ => .ok [("bran", .string "husks"), ("flour", .string "rye")]
  hooks := []

def oven : Craft where
  id := 1
  name := "oven"
  contract := ⟨[⟨"flour", .artifact, none⟩, ⟨"bran", .volatile, none⟩],
    [⟨"crumbs", .volatile⟩, ⟨"bread", .artifact⟩]⟩
  body := fun i => return [("bread", ← i.get "flour"), ("crumbs", ← i.get "bran")]
  hooks := []

def catalog : Catalog :=
  ⟨.empty, ["bread", "flour"].map fun name =>
    (name, ⟨name, "text", [("path", .string ("memory://" ++ name))], [], [], [], []⟩),
    Adapter.builtin⟩

def store : Store :=
  ⟨⟨.empty, []⟩, Backend.defaults ⟨"data"⟩⟩

/-- The crafts are listed in the opposite order of their run. -/
def pipeline : Pipeline :=
  ⟨"bakery", [oven, mill], [1, 0], []⟩

theorem ofCrafts_eq : Pipeline.ofCrafts "bakery" [oven, mill] = .ok pipeline := rfl

theorem result_eq : (pipeline.run catalog [] store).result =
    .ok ⟨[("bran", .string "husks"), ("crumbs", .string "husks")], ["flour", "bread"]⟩ := by
  cbv

end Bakery

open Bakery in
theorem Pipeline.Built.run_account_bakery : ∃ calls, pipeline.Account catalog [] store calls
    ⟨[("bran", .string "husks"), ("crumbs", .string "husks")], ["flour", "bread"]⟩
    (pipeline.run catalog [] store).store := by
  obtain ⟨-, account⟩ := Built.run_account (.ofCrafts ofCrafts_eq) catalog [] store
  exact account _ result_eq

end ArtifactFlow
