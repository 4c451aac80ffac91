import ArtifactFlow.Proofs.Run.Account

/-!
A context only grows. Whatever is done to it, and however that ends, parameters stay as they are,
volatiles and artifacts are added at the end, and nothing comes to stand there twice. A call that
fails between two of its outputs is no exception.
-/

namespace ArtifactFlow

/-- The second context is what the first has become by additions at the end. -/
structure Context.Extends (c d : Context) : Prop where
  shared : d.shared = c.shared
  blocks : d.blocks = c.blocks
  volatiles : c.volatiles <+: d.volatiles
  artifacts : c.artifacts <+: d.artifacts
  distinct : Fields.Distinct c.volatiles → Fields.Distinct d.volatiles
  once : c.artifacts.Nodup → d.artifacts.Nodup

namespace Context

variable {c d e : Context}

theorem Extends.refl (c : Context) : c.Extends c :=
  ⟨rfl, rfl, List.prefix_rfl, List.prefix_rfl, id, id⟩

theorem Extends.of_eq (h : d = c) : c.Extends d :=
  h ▸ .refl c

theorem Extends.trans (first : c.Extends d) (second : d.Extends e) : c.Extends e where
  shared := second.shared.trans first.shared
  blocks := second.blocks.trans first.blocks
  volatiles := first.volatiles.trans second.volatiles
  artifacts := first.artifacts.trans second.artifacts
  distinct h := second.distinct (first.distinct h)
  once h := second.once (first.once h)

theorem extends_insertVolatile {craft name : String} {value : Value}
    (h : c.insertVolatile craft name value = .ok d) : c.Extends d := by
  obtain ⟨⟨⟩, hfree, -⟩ := bind_eq_ok.1 h
  have hnew := Fields.get?_eq_none_iff.1 (checkFree_eq_ok.1 hfree)
  rw [insertVolatile_eq_ok h]
  exact ⟨rfl, rfl, List.prefix_append .., List.prefix_rfl,
    fun distinct => Fields.distinct_snoc.2 ⟨distinct, hnew⟩, id⟩

theorem extends_recordArtifact (c : Context) (name : String) :
    c.Extends (c.recordArtifact name) := by
  by_cases hmem : name ∈ c.artifacts
  · exact .of_eq (by simp [recordArtifact, hmem])
  · rw [recordArtifact_of_notMem hmem]
    refine ⟨rfl, rfl, List.prefix_rfl, List.prefix_append .., id, fun once => ?_⟩
    rw [List.nodup_append_comm]
    exact List.nodup_cons.2 ⟨hmem, once⟩

end Context

namespace Run

/-- The part of a run, however it ends, leaves an extension of the context that it finds. -/
def Extending (x : Run α) : Prop :=
  ∀ s : RunState, s.context.Extends (exec x s).2.context

variable {x : Run α} {target : String}

theorem Watches.extending (h : Watches target x) : Extending x :=
  fun _ => .of_eq (h.unchanged rfl).1

theorem Extending.throw (e : Fault) : Extending (throw e : Run α) :=
  fun s => .refl s.context

theorem Extending.bind {f : α → Run β} (hx : Extending x) (hf : ∀ a, Extending (f a)) :
    Extending (x >>= f) := by
  intro s
  have hfirst := hx s
  rw [exec_bind]
  rcases hexec : exec x s with ⟨e | a, t⟩ <;> rw [hexec] at hfirst
  · exact hfirst
  · exact hfirst.trans (hf a t)

theorem Extending.tryCatch {handle : Fault → Run α} (hx : Extending x)
    (hhandle : ∀ e, Extending (handle e)) : Extending (tryCatch x handle) := by
  intro s
  have hfirst := hx s
  rw [exec_tryCatch]
  rcases hexec : exec x s with ⟨e | a, t⟩ <;> rw [hexec] at hfirst
  · exact hfirst.trans (hhandle e t)
  · exact hfirst

end Run

namespace Craft

variable (craft : Craft) (catalog : Catalog)

theorem extending_deliver (args outputs : Mapping) (p : Production) :
    Run.Extending (craft.deliver catalog args outputs p) := by
  intro s
  obtain ⟨name, kind⟩ := p
  cases kind with
  | artifact =>
      rw [exec_deliver_artifact]
      rcases catalog.save name _ args s.store with ⟨e | ⟨⟩, store⟩
      · exact .refl s.context
      · exact s.context.extends_recordArtifact name
  | volatile =>
      rw [exec_deliver_volatile]
      cases hinsert : s.context.insertVolatile craft.name name _ with
      | error e => exact .refl s.context
      | ok context => exact Context.extends_insertVolatile hinsert

theorem extending_deliverAll (args outputs : Mapping) (ps : List Production) :
    Run.Extending (craft.deliverAll catalog args outputs ps) := by
  -- Outputs are delivered one by one, so that a failure between two of them leaves an extension.
  induction ps with
  | nil => exact fun s => .refl s.context
  | cons p ps ih => exact .bind (craft.extending_deliver catalog args outputs p) fun _ => ih

theorem extending_perform (overrides : Mapping) :
    Run.Extending (craft.perform catalog overrides) := by
  intro s
  rw [exec_perform]
  cases craft.compute catalog s.context s.store (craft.namespaceFor s.context overrides) with
  | error e => exact .refl s.context
  | ok outputs => exact craft.extending_deliverAll catalog _ outputs _ s

theorem extending_invoke (overrides : Mapping) :
    Run.Extending (craft.invoke catalog overrides) := by
  have told (e : Fault) :
      Run.Extending (do Hook.callFailed craft.name e craft.hooks; throw e : Run Unit) :=
    .bind (Hook.watches_callFailed _ _ _).extending fun _ => .throw e
  refine .bind (Hook.watches_callBefore _ _).extending fun _ => ?_
  refine .bind (.tryCatch (craft.extending_perform catalog overrides) told) fun _ => ?_
  exact (Hook.watches_callAfter _ _).extending

end Craft

namespace Context

/-- What can be done to a context. An invocation also depends on the store that it finds. -/
inductive Operation where
  | insertVolatile (craft name : String) (value : Value)
  | recordArtifact (name : String)
  | invoke (craft : Craft) (catalog : Catalog) (overrides : Mapping) (store : Store)

/-- How an operation ends, and the context that it leaves. -/
def operate (c : Context) : Operation → Except Fault Unit × Context
  | .insertVolatile craft name value =>
      match c.insertVolatile craft name value with
      | .ok d => (.ok (), d)
      | .error e => (.error e, c)
  | .recordArtifact name => (.ok (), c.recordArtifact name)
  | .invoke craft catalog overrides store =>
      let (result, s) := Run.exec (craft.invoke catalog overrides) ⟨c, store, []⟩
      (result, s.context)

/-- The context after operations one after another, whether they succeed or fail. -/
def operateAll (c : Context) (ops : List Operation) : Context :=
  ops.foldl (fun c op => (c.operate op).2) c

theorem extends_operate (c : Context) (op : Operation) : c.Extends (c.operate op).2 := by
  cases op with
  | insertVolatile craft name value =>
      rw [operate]
      cases hinsert : c.insertVolatile craft name value with
      | ok d => exact extends_insertVolatile hinsert
      | error e => exact .refl c
  | recordArtifact name => exact c.extends_recordArtifact name
  | invoke craft catalog overrides store =>
      exact craft.extending_invoke catalog overrides ⟨c, store, []⟩

theorem extends_operateAll (c : Context) (ops : List Operation) :
    c.Extends (c.operateAll ops) := by
  induction ops generalizing c with
  | nil => exact .refl c
  | cons op ops ih => exact (c.extends_operate op).trans (ih (c.operate op).2)

theorem operateAll_append (c : Context) (before after : List Operation) :
    c.operateAll (before ++ after) = (c.operateAll before).operateAll after :=
  List.foldl_append

/-- From the start of a run on, a context has the parameters that it began with. Each operation
extends what the operations before it have left, and no volatile and no artifact is ever there
twice. -/
theorem grows {args : Mapping} {crafts : List String} {start : Context}
    (h : ofArgs args crafts = .ok start) (before after : List Operation) :
    start.Extends (start.operateAll before) ∧
      (start.operateAll before).Extends (start.operateAll (before ++ after)) ∧
      Fields.Distinct (start.operateAll (before ++ after)).volatiles ∧
      (start.operateAll (before ++ after)).artifacts.Nodup := by
  have hall := start.extends_operateAll (before ++ after)
  obtain ⟨hvolatiles, hartifacts⟩ := fresh_of_ofArgs h
  refine ⟨start.extends_operateAll before, ?_, hall.distinct ?_, hall.once ?_⟩
  · rw [operateAll_append]
    exact (start.operateAll before).extends_operateAll after
  · rw [hvolatiles]
    exact List.nodup_nil
  · rw [hartifacts]
    exact List.nodup_nil

end Context

namespace Bakery

/-- Without a place for bread the oven fails once it has made crumbs. -/
def pantry : Catalog :=
  { catalog with declarations := Fields.erase "bread" catalog.declarations }

def milled : List Context.Operation :=
  [.recordArtifact "flour", .invoke mill catalog [] store, .insertVolatile "oven" "bran" .null]

def baked : List Context.Operation :=
  [.invoke oven pantry [] (mill.call catalog [] store).store, .invoke mill catalog [] store]

end Bakery

open Bakery in
theorem Context.grows_bakery :
    (empty.operateAll milled).Extends (empty.operateAll (milled ++ baked)) ∧
      (empty.operateAll milled).volatiles = [("bran", .string "husks")] ∧
      (empty.operateAll (milled ++ baked)).volatiles =
        [("bran", .string "husks"), ("crumbs", .string "husks")] ∧
      (empty.operateAll (milled ++ baked)).artifacts = ["flour"] := by
  have start : ofArgs [] [] = .ok empty := rfl
  obtain ⟨-, hextends, -, -⟩ := grows start milled baked
  exact ⟨hextends, by cbv, by cbv, by cbv⟩

end ArtifactFlow
