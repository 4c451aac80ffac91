import ArtifactFlow.Proofs.Catalog.Location
import ArtifactFlow.Proofs.Run.Exec

/-!
What a call of a craft does, seen from outside: it fails, or it delivers a list of artifacts and
volatiles. Which of these, and what is delivered, depends on what the craft looks at and on nothing
else of the state.
-/

namespace ArtifactFlow

/-- What a run has made so far, regardless of the order in which it came about. -/
@[ext] structure Visible where
  volatile? : String → Option Value
  written : String → Prop
  stored : Location → Result ByteArray

/-- An output on its way to where it is kept. -/
inductive Delivery where
  | artifact (name : String) (location : Location) (bytes : ByteArray)
  | volatile (name : String) (value : Value)

namespace Visible

def deliver (v : Visible) : Delivery → Visible
  | .artifact name l bytes =>
      { v with
        written := fun other => v.written other ∨ other = name
        stored := fun other => if other = l then .ok bytes else v.stored other }
  | .volatile name value =>
      { v with volatile? := fun other => if name = other then some value else v.volatile? other }

def deliverAll (v : Visible) (ds : List Delivery) : Visible :=
  ds.foldl deliver v

end Visible

/-- The delivery is one of some productions, and an artifact goes where the catalog keeps it. -/
def Delivery.Meets (catalog : Catalog) (args : Mapping) (ps : List Production) : Delivery → Prop
  | .artifact name l _ => ⟨name, .artifact⟩ ∈ ps ∧ catalog.location? name args = some l
  | .volatile name _ => ⟨name, .volatile⟩ ∈ ps

theorem Delivery.Meets.mono {catalog : Catalog} {args : Mapping} {ps qs : List Production}
    {d : Delivery} (h : d.Meets catalog args ps) (hsub : ps ⊆ qs) : d.Meets catalog args qs := by
  cases d with
  | artifact name l bytes => exact ⟨hsub h.1, h.2⟩
  | volatile name value => exact hsub h

namespace RunState

/-- A state of a run that began with some context, on a store with a table under `memory`. -/
structure Within (context : Context) (s : RunState) : Prop where
  shared : s.context.shared = context.shared
  blocks : s.context.blocks = context.blocks
  memory : s.store.HasMemory

def visible (s : RunState) : Visible where
  volatile? := s.context.volatile?
  written := (· ∈ s.context.artifacts)
  stored := s.store.readAt

end RunState

namespace Context

theorem checkFree_eq_ok {c : Context} {craft name : String} :
    c.checkFree craft name = .ok () ↔ c.volatile? name = none := by
  rw [checkFree, Fields.contains, volatile?]
  cases Fields.get? name c.volatiles <;> simp

theorem insertVolatile_of_free {c : Context} {craft name : String}
    (h : c.volatile? name = none) (value : Value) :
    c.insertVolatile craft name value =
      .ok { c with volatiles := Fields.insert name value c.volatiles } := by
  rw [insertVolatile, checkFree_eq_ok.2 h]
  rfl

theorem recordArtifact_eq (c : Context) (name : String) :
    c.recordArtifact name = { c with artifacts := (c.recordArtifact name).artifacts } := by
  rw [recordArtifact]
  split <;> rfl

theorem mem_recordArtifact {c : Context} {name other : String} :
    other ∈ (c.recordArtifact name).artifacts ↔ other ∈ c.artifacts ∨ other = name := by
  rw [recordArtifact]
  split
  · rename_i h
    have hmem := List.contains_iff_mem.1 h
    exact ⟨.inl, fun h => h.elim id fun heq => heq ▸ hmem⟩
  · simp

end Context

namespace Craft

/-- A part of a run that starts from `s` fails, or delivers what is planned. -/
def Follows (context : Context) (plan : Option (List Delivery)) (s : RunState) :
    Except Fault Unit × RunState → Prop
  | (.ok _, t) => t.Within context ∧ ∃ ds, plan = some ds ∧ t.visible = s.visible.deliverAll ds
  | (.error _, _) => plan = none

variable {catalog : Catalog}

/-- Delivering one output. -/
theorem deliver_plan (craft : Craft) (context : Context) (files : catalog.FileAdapters)
    (args outputs : Mapping) (p : Production) (memory : p.kind = .artifact →
      ∀ l, catalog.location? p.name args = some l → l.scheme = "memory") :
    ∃ plan : Option (List Delivery), (∀ ds ∈ plan, ∀ d ∈ ds, d.Meets catalog args [p]) ∧
      ∀ s : RunState, s.Within context →
        (p.kind = .volatile → s.context.volatile? p.name = none) →
        Follows context plan s (Run.exec (craft.deliver catalog args outputs p) s) := by
  obtain ⟨name, kind⟩ := p
  cases kind with
  | artifact =>
      rcases catalog.save_cases files name ((Fields.get? name outputs).getD .null) args with
        ⟨e, hfail⟩ | ⟨l, bytes, fault, hlocation, hsave⟩
      · refine ⟨none, by simp, ?_⟩
        intro s _ _
        rw [exec_deliver_artifact, hfail]
        rfl
      · refine ⟨some [.artifact name l bytes], ?_, ?_⟩
        · simp [Delivery.Meets, hlocation]
        · intro s within _
          obtain ⟨t, hwrite, ht, -, hread⟩ :=
            Store.writeAt_memory within.memory (memory rfl l hlocation) bytes
          rw [exec_deliver_artifact, hsave, hwrite, Context.recordArtifact_eq]
          refine ⟨⟨within.shared, within.blocks, ht⟩, _, rfl, ?_⟩
          refine Visible.ext rfl ?_ (funext hread)
          funext other
          exact propext Context.mem_recordArtifact
  | volatile =>
      refine ⟨some [.volatile name ((Fields.get? name outputs).getD .null)], ?_, ?_⟩
      · simp [Delivery.Meets]
      · intro s within hfree
        rw [exec_deliver_volatile, Context.insertVolatile_of_free (hfree rfl)]
        refine ⟨⟨within.shared, within.blocks, within.memory⟩, _, rfl, ?_⟩
        refine Visible.ext ?_ rfl rfl
        funext other
        exact Fields.get?_insert _ _ _ _

/-- Deliveries leave alone what they are not for. -/
theorem deliverAll_volatile?_of_not_mem {args : Mapping} {ds : List Delivery}
    {ps : List Production}
    (hds : ∀ d ∈ ds, d.Meets catalog args ps) {name : String}
    (h : ⟨name, .volatile⟩ ∉ ps) (v : Visible) :
    (v.deliverAll ds).volatile? name = v.volatile? name := by
  induction ds generalizing v with
  | nil => rfl
  | cons d ds ih =>
      obtain ⟨hd, hds⟩ := List.forall_mem_cons.1 hds
      refine (ih hds (v.deliver d)).trans ?_
      cases d with
      | artifact other l bytes => rfl
      | volatile other value =>
          have hne : other ≠ name := fun heq => h (heq ▸ hd)
          exact if_neg hne

theorem deliverAll_stored_of_apart {args : Mapping} {ds : List Delivery} {ps : List Production}
    (hds : ∀ d ∈ ds, d.Meets catalog args ps) {l : Location}
    (h : ∀ name, ⟨name, .artifact⟩ ∈ ps → catalog.location? name args ≠ some l) (v : Visible) :
    (v.deliverAll ds).stored l = v.stored l := by
  induction ds generalizing v with
  | nil => rfl
  | cons d ds ih =>
      obtain ⟨hd, hds⟩ := List.forall_mem_cons.1 hds
      refine (ih hds (v.deliver d)).trans ?_
      cases d with
      | artifact other m bytes =>
          have hne : l ≠ m := fun heq => h other hd.1 (heq ▸ hd.2)
          exact if_neg hne
      | volatile other value => rfl

/-- Delivering outputs of different names. -/
theorem deliverAll_plan (craft : Craft) (context : Context) (files : catalog.FileAdapters)
    (args outputs : Mapping) {ps : List Production} (hnodup : (ps.map (·.name)).Nodup)
    (memory : ∀ name, ⟨name, .artifact⟩ ∈ ps →
      ∀ l, catalog.location? name args = some l → l.scheme = "memory") :
    ∃ plan : Option (List Delivery), (∀ ds ∈ plan, ∀ d ∈ ds, d.Meets catalog args ps) ∧
      ∀ s : RunState, s.Within context →
        (∀ name, ⟨name, .volatile⟩ ∈ ps → s.context.volatile? name = none) →
        Follows context plan s (Run.exec (craft.deliverAll catalog args outputs ps) s) := by
  induction ps with
  | nil => exact ⟨some [], by simp, fun s within _ => ⟨within, [], rfl, rfl⟩⟩
  | cons p ps ih =>
      obtain ⟨hnew, hnodup⟩ := List.nodup_cons.1 hnodup
      obtain ⟨first, hfirst, runFirst⟩ := deliver_plan craft context files args outputs p
        (fun hkind => memory p.name (by rw [← hkind]; exact List.mem_cons_self))
      obtain ⟨others, hothers, runOthers⟩ := ih hnodup fun name hname =>
        memory name (List.mem_cons_of_mem p hname)
      refine ⟨first.bind fun ds => others.map (ds ++ ·), ?_, ?_⟩
      · intro ds hds d hd
        obtain ⟨before, hbefore, hds⟩ := Option.bind_eq_some_iff.1 hds
        obtain ⟨after, hafter, rfl⟩ := Option.map_eq_some_iff.1 hds
        rcases List.mem_append.1 hd with hd | hd
        · exact (hfirst before hbefore d hd).mono (by simp)
        · exact (hothers after hafter d hd).mono (by simp)
      · intro s within hfree
        have hrun := runFirst s within (fun hkind =>
          hfree p.name (by rw [← hkind]; exact List.mem_cons_self))
        rw [exec_deliverAll_cons]
        rcases hexec : Run.exec (craft.deliver catalog args outputs p) s with ⟨e | _, t⟩
        · rw [hexec] at hrun
          obtain rfl : first = none := hrun
          rfl
        · rw [hexec] at hrun
          obtain ⟨ht, before, rfl, hvisible⟩ := hrun
          have hstill : ∀ name, ⟨name, .volatile⟩ ∈ ps → t.context.volatile? name = none := by
            intro name hname
            have hfree := hfree name (List.mem_cons_of_mem p hname)
            have hne : (⟨name, .volatile⟩ : Production) ∉ [p] := by
              intro hmem
              obtain rfl := List.mem_singleton.1 hmem
              exact hnew (List.mem_map_of_mem hname)
            have := deliverAll_volatile?_of_not_mem (hfirst before rfl) hne s.visible
            rw [← hvisible] at this
            exact this.trans hfree
          have hrest := runOthers t ht hstill
          simp only
          rcases hexec : Run.exec (craft.deliverAll catalog args outputs ps) t with ⟨e | _, u⟩
          · rw [hexec] at hrest
            obtain rfl : others = none := hrest
            rfl
          · rw [hexec] at hrest
            obtain ⟨hu, after, rfl, hvisible'⟩ := hrest
            refine ⟨hu, before ++ after, rfl, ?_⟩
            rw [hvisible', hvisible]
            exact (List.foldl_append ..).symm

end Craft
end ArtifactFlow
