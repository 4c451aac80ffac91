import ArtifactFlow.Proofs.Fields
import ArtifactFlow.Proofs.Run.Exec
import ArtifactFlow.Value.Merge

/-!
A pipeline of one craft against the craft called on its own. The run sorts its arguments into shared
ones and a block for the craft, the call is given all of them at once; the namespaces that come of
it are the same down to the order of their keys, and nothing else of the arguments is looked at.
-/

namespace ArtifactFlow

/-- The state with other arguments of the run. -/
def RunState.given (s : RunState) (shared : Mapping) (blocks : Fields Mapping) : RunState :=
  { s with context := { s.context with shared, blocks } }

namespace Context

/-- Arguments among which one craft's are told apart. -/
theorem foldlM_addArgument {args : Mapping} (distinct : Fields.Distinct args) (craft : String)
    (c : Context) : args.foldlM (fun c (key, value) => c.addArgument [craft] key value) c =
      match Fields.get? craft args with
      | none => .ok { c with shared := Fields.insertAll c.shared args }
      | some (.mapping block) => .ok { c with
          shared := Fields.insertAll c.shared (Fields.erase craft args)
          blocks := Fields.insert craft block c.blocks }
      | some _ => .error (.invalidBlock craft) := by
  induction args generalizing c with
  | nil => rfl
  | cons entry rest ih =>
      obtain ⟨key, value⟩ := entry
      obtain ⟨hkey, hrest⟩ := List.nodup_cons.1 distinct
      rw [List.foldlM_cons]
      by_cases heq : key = craft
      · subst heq
        have hnone : Fields.get? key rest = none := Fields.get?_eq_none_iff.2 hkey
        cases value with
        | mapping block =>
            simp only [addArgument, List.contains_cons, BEq.rfl, Bool.true_or, if_true,
              Fields.get?, Fields.erase]
            refine (ih hrest _).trans ?_
            rw [hnone]
        | null | bool | int | float | string | list =>
            simp only [addArgument, List.contains_cons, BEq.rfl, Bool.true_or, if_true, Fields.get?]
            rfl
      · have hshared : c.addArgument [craft] key value =
            .ok { c with shared := Fields.insert key value c.shared } := by
          simp [addArgument, heq]
        rw [Fields.get?, if_neg heq, Fields.erase, if_neg heq]
        change (c.addArgument [craft] key value >>= fun d => rest.foldlM _ d) = _
        rw [hshared]
        exact ih hrest _

end Context

namespace Craft

open Run

variable (craft : Craft) (catalog : Catalog)

/-- Delivering an output neither reads nor changes the arguments of the run. -/
theorem deliver_given (shared : Mapping) (blocks : Fields Mapping) (args outputs : Mapping)
    (p : Production) :
    Commutes (·.given shared blocks) (craft.deliver catalog args outputs p) := by
  intro s
  obtain ⟨name, kind⟩ := p
  cases kind with
  | artifact =>
      have hstore : (s.given shared blocks).store = s.store := rfl
      rw [exec_deliver_artifact, exec_deliver_artifact, hstore]
      rcases catalog.save name ((Fields.get? name outputs).getD .null) args s.store with
        ⟨_ | _, store⟩
      · rfl
      · have hrecord : (s.given shared blocks).context.recordArtifact name =
            { s.context.recordArtifact name with shared, blocks } := by
          simp only [Context.recordArtifact, RunState.given]
          by_cases h : s.context.artifacts.contains name
          · simp only [h, if_true]
          · simp only [h, if_false, Bool.false_eq_true]
        rw [hrecord]
        rfl
  | volatile =>
      have hfree : (s.given shared blocks).context.checkFree craft.name name =
        s.context.checkFree craft.name name := rfl
      rw [exec_deliver_volatile, exec_deliver_volatile, Context.insertVolatile,
        Context.insertVolatile, hfree]
      cases s.context.checkFree craft.name name <;> rfl

/-- A call depends on the arguments of the run through its namespace alone. -/
theorem exec_perform_given {shared : Mapping} {blocks : Fields Mapping} {s : RunState}
    {overrides others : Mapping} (same : craft.namespaceFor (s.given shared blocks).context others =
      craft.namespaceFor s.context overrides) :
    exec (craft.perform catalog others) (s.given shared blocks) =
      ((exec (craft.perform catalog overrides) s).1,
        (exec (craft.perform catalog overrides) s).2.given shared blocks) := by
  have hcompute (args : Mapping) : craft.compute catalog (s.given shared blocks).context
      (s.given shared blocks).store args = craft.compute catalog s.context s.store args := rfl
  rw [exec_perform, exec_perform, same, hcompute]
  cases craft.compute catalog s.context s.store (craft.namespaceFor s.context overrides) with
  | error e => rfl
  | ok outputs =>
      exact commutes_deliverAll (craft.deliver_given catalog shared blocks _ outputs) _ s

/-- Of the arguments of a run, a craft's own block lies over the shared ones. -/
theorem namespaceFor_block {args : Mapping} (distinct : Fields.Distinct args) (block : Mapping) :
    craft.namespaceFor ⟨Fields.insertAll [] (Fields.erase craft.name args),
        [(craft.name, block)], [], []⟩ [] =
      craft.namespaceFor .empty (Mapping.replace (Fields.erase craft.name args) block) := by
  have hrest : Fields.Distinct (Fields.erase craft.name args) :=
    Fields.distinct_erase craft.name distinct
  have hempty : Fields.Distinct ([] : Mapping) := List.nodup_nil
  simp only [namespaceFor, Context.block?, Context.empty, Fields.get?, if_true, Mapping.replace,
    Fields.insertAll_insertAll _ hrest, Fields.insertAll_insertAll _ hempty]
  rfl

theorem namespaceFor_shared (args : Mapping) :
    craft.namespaceFor ⟨Fields.insertAll [] args, [], [], []⟩ [] =
      craft.namespaceFor .empty args := by
  have hempty : Fields.Distinct ([] : Mapping) := List.nodup_nil
  simp only [namespaceFor, Context.block?, Context.empty, Fields.get?, Mapping.replace,
    Fields.insertAll_insertAll _ hempty]
  rfl

end Craft

namespace Pipeline

open Run

theorem exec_perform_ofCraft {craft : Craft} (hooks : craft.hooks = []) (catalog : Catalog)
    (s : RunState) :
    exec ((ofCraft craft).perform catalog) s = exec (craft.perform catalog []) s := by
  have hordered : (ofCraft craft).ordered = [craft] := rfl
  rw [exec_perform catalog rfl, hordered, exec_runCrafts_cons catalog rfl,
    Craft.exec_invoke catalog hooks]
  rcases exec (craft.perform catalog []) s with ⟨_ | _, t⟩ <;> rfl

theorem run_ofCraft_of_same {craft : Craft} (hooks : craft.hooks = []) (catalog : Catalog)
    {args shared overrides : Mapping} {blocks : Fields Mapping}
    (sorted : Context.ofArgs args [craft.name] = .ok ⟨shared, blocks, [], []⟩)
    (same : craft.namespaceFor ⟨shared, blocks, [], []⟩ [] =
      craft.namespaceFor .empty overrides) (store : Store) :
    (ofCraft craft).run catalog args store = craft.call catalog overrides store := by
  have hgiven : ⟨⟨shared, blocks, [], []⟩, store, []⟩ =
    (⟨.empty, store, []⟩ : RunState).given shared blocks := rfl
  have hnames : (ofCraft craft).crafts.map (·.name) = [craft.name] := rfl
  rw [Craft.call_eq, Craft.exec_invoke catalog hooks, run_eq, hnames, sorted]
  simp only [exec_perform_ofCraft hooks]
  have hperform := craft.exec_perform_given catalog (s := ⟨.empty, store, []⟩) same
  rw [hgiven, hperform]
  rcases exec (craft.perform catalog overrides) ⟨.empty, store, []⟩ with ⟨_ | _, t⟩ <;> rfl

/-- The run of a single craft is the call with all that the run was given, the craft's own block
over the rest. What stands under the craft's name must be a mapping. -/
theorem run_ofCraft {craft : Craft} (hooks : craft.hooks = []) (catalog : Catalog)
    {args : Mapping} (distinct : Fields.Distinct args) (store : Store) :
    (ofCraft craft).run catalog args store =
      match Fields.get? craft.name args with
      | none => craft.call catalog args store
      | some (.mapping block) =>
          craft.call catalog (Mapping.replace (Fields.erase craft.name args) block) store
      | some _ => ⟨.error (.invalidBlock craft.name), store, []⟩ := by
  have sorted := Context.foldlM_addArgument distinct craft.name .empty
  cases hown : Fields.get? craft.name args with
  | none =>
      rw [hown] at sorted
      exact run_ofCraft_of_same hooks catalog sorted (craft.namespaceFor_shared args) store
  | some value =>
      rw [hown] at sorted
      cases value with
      | mapping block =>
          exact run_ofCraft_of_same hooks catalog sorted (craft.namespaceFor_block distinct block)
            store
      | null | bool | int | float | string | list =>
          have hrefused : Context.ofArgs args [craft.name] =
            .error (.invalidBlock craft.name) := sorted
          have hnames : (ofCraft craft).crafts.map (·.name) = [craft.name] := rfl
          rw [run_eq, hnames, hrefused]

end Pipeline

namespace Stationery

/-- Prints on paper that the catalog keeps under its size. -/
def printer : Craft where
  id := 0
  name := "printer"
  contract := ⟨[⟨"size", .param, some (.string "A4")⟩, ⟨"ink", .param, none⟩,
      ⟨"paper", .artifact, none⟩], [⟨"sheet", .volatile⟩, ⟨"colour", .volatile⟩]⟩
  body := fun i => return [("sheet", ← i.get "paper"), ("colour", ← i.get "ink")]
  hooks := []

def catalog : Catalog :=
  ⟨.empty, [("paper", ⟨"paper", "text", [("path", .string "memory://!\x7b size \x7d")], [], [], [],
    []⟩)], Adapter.builtin⟩

def store : Store :=
  ⟨⟨.empty, []⟩, [("memory", .memory [("A4", "plain".toUTF8), ("A5", "laid".toUTF8)])]⟩

/-- The ink is for all, the size for the printer alone. -/
def args : Mapping :=
  [("ink", .string "black"), ("printer", .mapping [("size", .string "A5")])]

end Stationery

open Stationery in
theorem Pipeline.run_ofCraft_stationery : printer.hooks = [] ∧ Fields.Distinct args ∧
    (Pipeline.ofCraft printer).run catalog args store =
      printer.call catalog [("ink", .string "black"), ("size", .string "A5")] store ∧
    ((Pipeline.ofCraft printer).run catalog args store).result.toOption.map
        (Fields.mapValues Value.stringify ·.volatiles) =
      some [("sheet", "laid"), ("colour", "black")] := by
  have distinct : Fields.Distinct args := by simp [Fields.Distinct, Fields.keys, args]
  exact ⟨rfl, distinct, run_ofCraft rfl catalog distinct store, by decide +kernel⟩

end ArtifactFlow
