import ArtifactFlow.Proofs.Catalog.Codec
import ArtifactFlow.Proofs.Placeholder.Plain
import ArtifactFlow.Proofs.Run.Dataflow

/-!
Artifacts pass through the store from the craft that makes them to those that require them. What is
written at a location stays there while other artifacts are written elsewhere; so a craft loads what
the producer has saved, if both find the artifact at the same place.
-/

namespace ArtifactFlow

/-- Payloads whose artifacts are kept under `memory`. -/
def Catalog.InMemory (catalog : Catalog) (saved : List Saving) : Prop :=
  ∀ x ∈ saved, ∀ l, catalog.location? x.name x.args = some l → l.scheme = "memory"

namespace Catalog

variable {catalog : Catalog} (files : catalog.FileAdapters) {saved before after : List Saving}
  {x : Saving} {s t : Store}
include files

/-- Saving changes nothing but the locations of what is saved. -/
theorem readAt_of_saves (memory : s.HasMemory) (inMemory : catalog.InMemory saved)
    (h : catalog.Saves saved s t) : t.HasMemory ∧ ∀ l,
      (∀ x ∈ saved, catalog.location? x.name x.args ≠ some l) → t.readAt l = s.readAt l := by
  induction saved generalizing s with
  | nil =>
      obtain rfl : s = t := h
      exact ⟨memory, fun _ _ => rfl⟩
  | cons x saved ih =>
      obtain ⟨u, hx, hrest⟩ := h
      obtain ⟨hscheme, inMemory⟩ := List.forall_mem_cons.1 inMemory
      obtain ⟨codec, options, keeps⟩ := exists_keeps files hx
      obtain ⟨l, bytes, hlocation, -, hwrite⟩ := keeps.save_eq_ok hx
      obtain ⟨v, hv, hmemory, -, hread⟩ := Store.writeAt_memory memory (hscheme l hlocation) bytes
      obtain rfl : v = u := (Prod.mk.inj (hv.symm.trans hwrite)).2
      obtain ⟨ht, hsame⟩ := ih hmemory inMemory hrest
      refine ⟨ht, ?_⟩
      intro m hapart
      obtain ⟨hfirst, hapart⟩ := List.forall_mem_cons.1 hapart
      have hne : m ≠ l := by
        rintro rfl
        exact hfirst hlocation
      rw [hsame m hapart, hread, if_neg hne]

theorem exists_keeps_of_saves (h : catalog.Saves saved s t) (hx : x ∈ saved) :
    ∃ codec options, catalog.Keeps x.name codec options := by
  obtain ⟨before, after, rfl⟩ := List.append_of_mem hx
  obtain ⟨u, -, v, hsave, -⟩ := saves_append.1 h
  exact exists_keeps files hsave

/-- What was saved last at a location is there in the end. -/
theorem stored_of_saves {codec : Codec} {options : Mapping}
    (keeps : catalog.Keeps x.name codec options) (memory : s.HasMemory)
    (inMemory : catalog.InMemory (before ++ x :: after))
    (apart : ∀ y ∈ after, ∀ l, catalog.location? x.name x.args = some l →
      catalog.location? y.name y.args ≠ some l)
    (h : catalog.Saves (before ++ x :: after) s t) :
    ∃ l bytes, catalog.location? x.name x.args = some l ∧
      codec.encode options x.payload = .ok bytes ∧ t.readAt l = .ok bytes := by
  obtain ⟨hbefore, hafter⟩ := List.forall_mem_append.1 inMemory
  obtain ⟨hscheme, hafter⟩ := List.forall_mem_cons.1 hafter
  obtain ⟨u, hfirst, v, hx, hrest⟩ := saves_append.1 h
  obtain ⟨hu, -⟩ := readAt_of_saves files memory hbefore hfirst
  obtain ⟨l, bytes, hlocation, hencode, hwrite⟩ := keeps.save_eq_ok hx
  obtain ⟨w, hw, hv, -, hread⟩ := Store.writeAt_memory hu (hscheme l hlocation) bytes
  obtain rfl : w = v := (Prod.mk.inj (hw.symm.trans hwrite)).2
  obtain ⟨-, hsame⟩ := readAt_of_saves files hv hafter hrest
  refine ⟨l, bytes, hlocation, hencode, ?_⟩
  rw [hsame l fun y hy => apart y hy l hlocation, hread, if_pos rfl]

end Catalog

theorem Call.exists_saved {call : Call} {name : String}
    (present : Production.Present call.outputs call.craft.contract.produced)
    (hname : ⟨name, .artifact⟩ ∈ call.craft.contract.produced) :
    ∃ value, Fields.get? name call.outputs = some value ∧
      ⟨name, value, call.args⟩ ∈ call.saved := by
  obtain ⟨value, hvalue⟩ := present _ hname
  have hentry := Production.mem_delivered_iff.2 ⟨hname, hvalue⟩
  exact ⟨value, hvalue, List.mem_map.2 ⟨_, hentry, rfl⟩⟩

theorem Call.mem_saved {call : Call} {x : Saving} (h : x ∈ call.saved) :
    x.args = call.args ∧ ⟨x.name, .artifact⟩ ∈ call.craft.contract.produced := by
  obtain ⟨entry, hentry, rfl⟩ := List.mem_map.1 h
  exact ⟨rfl, (Production.mem_delivered_iff.1 hentry).1⟩

theorem Craft.namespaceFor_congr {craft : Craft} {c d : Context} (shared : c.shared = d.shared)
    (blocks : c.blocks = d.blocks) : craft.namespaceFor c [] = craft.namespaceFor d [] := by
  simp only [namespaceFor, Context.block?, shared, blocks]

theorem Craft.input_artifact {craft : Craft} {catalog : Catalog} {context : Context} {store : Store}
    {args : Mapping} {r : Requirement} (hkind : r.kind = .artifact) (hdefault : r.default? = none) :
    craft.input catalog context store args r = catalog.load r.name args store := by
  simp only [input, hkind, hdefault]
  cases catalog.load r.name args store <;> rfl

namespace Pipeline

variable {p : Pipeline} {catalog : Catalog} {args : Mapping} {store : Store} {context : Context}
  {calls : List Call} {left : List Craft} {craft producer : Craft} {s : RunState}

section Progress

variable (h : p.Progress catalog args store calls left s)
  (hcontext : Context.ofArgs args (p.crafts.map (·.name)) = .ok context)
include h hcontext

theorem Progress.namespaceFor_eq (craft : Craft) :
    craft.namespaceFor s.context [] = craft.namespaceFor context [] := by
  obtain ⟨found, hfound, moves⟩ := h.moves
  obtain rfl := Except.ok.inj (hcontext.symm.trans hfound)
  exact Craft.namespaceFor_congr moves.shared moves.blocks

/-- The arguments of a call are those that the run began with. -/
theorem Progress.call_args {call : Call} (hcall : call ∈ calls) :
    call.args = call.craft.namespaceFor context [] := by
  obtain ⟨before, others, rfl⟩ := List.append_of_mem hcall
  obtain ⟨t, hbefore, u, takes⟩ := h.before
  rw [takes.args, hbefore.namespaceFor_eq hcontext]

end Progress

/-- An artifact of a call is in the store as the producer saved it. -/
theorem Progress.stored (ordered : p.WellOrdered) (files : catalog.FileAdapters)
    (memory : store.HasMemory)
    (hcontext : Context.ofArgs args (p.crafts.map (·.name)) = .ok context)
    (separate : Separate catalog context p.crafts)
    (h : p.Progress catalog args store calls left s) {call : Call} (hcall : call ∈ calls)
    {name : String} (hname : ⟨name, .artifact⟩ ∈ call.craft.contract.produced) :
    ∃ value, Fields.get? name call.outputs = some value ∧
      (∃ codec options, catalog.Keeps name codec options) ∧
      ∀ codec options, catalog.Keeps name codec options → ∃ l bytes,
        catalog.location? name (call.craft.namespaceFor context []) = some l ∧
          codec.encode options value = .ok bytes ∧ s.store.readAt l = .ok bytes := by
  have touches : ∀ y ∈ calls.flatMap Call.saved, ∃ d ∈ p.crafts, d.Touches y.name ∧
      y.args = d.namespaceFor context [] := by
    intro y hy
    obtain ⟨other, hother, hy⟩ := List.mem_flatMap.1 hy
    obtain ⟨hargs, hproduced⟩ := Call.mem_saved hy
    exact ⟨other.craft, h.mem_crafts ordered hother, .inr hproduced,
      hargs.trans (h.call_args hcontext hother)⟩
  have inMemory : catalog.InMemory (calls.flatMap Call.saved) := by
    intro y hy l hl
    obtain ⟨d, hd, htouches, hargs⟩ := touches y hy
    exact separate.memory d hd y.name htouches l (hargs ▸ hl)
  obtain ⟨value, hvalue, hsaved⟩ := Call.exists_saved (h.present call hcall) hname
  have hmem : ⟨name, value, call.args⟩ ∈ calls.flatMap Call.saved :=
    List.mem_flatMap.2 ⟨call, hcall, hsaved⟩
  obtain ⟨before, after, hsplit⟩ := List.append_of_mem hmem
  -- Every name is saved once, so that what is saved later goes elsewhere.
  have apart : ∀ y ∈ after, ∀ l, catalog.location? name call.args = some l →
      catalog.location? y.name y.args ≠ some l := by
    intro y hy l hl
    have hnodup := (h.nodup_productions ordered .artifact).sublist (List.sublist_append_left _ _)
    rw [← h.names_saved, hsplit, List.map_append, List.map_cons] at hnodup
    have hnew := (List.nodup_cons.1 (List.nodup_append.1 hnodup).2.1).1
    have hne : name ≠ y.name := by
      intro heq
      exact hnew (List.mem_map.2 ⟨y, hy, heq.symm⟩)
    obtain ⟨d, hd, htouches, hargs⟩ := touches y (by simp [hsplit, hy])
    rw [h.call_args hcontext hcall] at hl
    rw [hargs]
    exact separate.apart call.craft (h.mem_crafts ordered hcall) d hd name y.name (.inr hname)
      htouches hne l hl
  obtain ⟨found, -, moves⟩ := h.moves
  refine ⟨value, hvalue, Catalog.exists_keeps_of_saves files moves.saves hmem, ?_⟩
  intro codec options keeps
  have hsaves := moves.saves
  rw [hsplit] at hsaves inMemory
  have hstored := Catalog.stored_of_saves files keeps memory inMemory apart hsaves
  rwa [h.call_args hcontext hcall] at hstored

/-- An artifact that a craft requires and another craft of the pipeline makes: if both find it at
the same location, then where the run goes on with the craft it loads what comes of the value that
the other one returned when it is encoded and decoded again. Of a text artifact that is the value
itself. -/
theorem Built.artifact_received (built : p.Built) (files : catalog.FileAdapters)
    (memory : store.HasMemory)
    (hcontext : Context.ofArgs args (p.crafts.map (·.name)) = .ok context)
    (separate : Separate catalog context p.crafts)
    (h : p.Progress catalog args store calls (craft :: left) s) {r : Requirement}
    (hr : r ∈ craft.contract.required) (hkind : r.kind = .artifact) (hdefault : r.default? = none)
    (hproducer : producer ∈ p.crafts) (hne : producer ≠ craft)
    (hname : ⟨r.name, .artifact⟩ ∈ producer.contract.produced)
    (same : catalog.location? r.name (producer.namespaceFor context []) =
      catalog.location? r.name (craft.namespaceFor context [])) :
    p.run catalog args store = p.resume catalog (craft :: left) s ∧
    ∃ call ∈ calls, call.craft = producer ∧ producer.body call.inputs = .ok call.outputs ∧
      ∃ value, Fields.get? r.name call.outputs = some value ∧
        (∃ codec options, catalog.Keeps r.name codec options) ∧
        (∀ codec options, catalog.Keeps r.name codec options → ∀ v,
          craft.input catalog s.context s.store (craft.namespaceFor s.context []) r = .ok v ↔
            codec.encode options value >>= codec.decode = .ok v) ∧
        ∀ options, catalog.Keeps r.name .plain options →
          craft.input catalog s.context s.store (craft.namespaceFor s.context []) r =
            .ok value := by
  have ordered := built.wellOrdered
  have hsupplies := Craft.supplies_of_mem hname hr (by simp [hkind])
  obtain ⟨call, hcall, rfl⟩ := h.exists_call ordered hproducer hne hsupplies
  obtain ⟨begun, start, -, -, course⟩ := h.course
  obtain ⟨value, hvalue, declared, hstored⟩ :=
    h.stored ordered files memory hcontext separate hcall hname
  have hload (codec : Codec) (options : Mapping) (keeps : catalog.Keeps r.name codec options) :
      ∃ bytes, codec.encode options value = .ok bytes ∧ ∀ v,
        craft.input catalog s.context s.store (craft.namespaceFor s.context []) r = .ok v ↔
          codec.decode bytes = .ok v := by
    obtain ⟨l, bytes, hlocation, hencode, hread⟩ := hstored codec options keeps
    refine ⟨bytes, hencode, fun v => ?_⟩
    rw [Craft.input_artifact hkind hdefault, h.namespaceFor_eq hcontext]
    exact keeps.load_eq_ok_iff (same ▸ hlocation) hread
  refine ⟨h.run_eq, call, hcall, rfl, course.returned call hcall, value, hvalue, declared, ?_, ?_⟩
  · intro codec options keeps v
    obtain ⟨bytes, hencode, hdecode⟩ := hload codec options keeps
    rw [hdecode, hencode, ok_bind]
  · intro options keeps
    obtain ⟨bytes, hencode, hdecode⟩ := hload .plain options keeps
    exact (hdecode value).2 (Codec.decode_of_encode_plain hencode)

end Pipeline

namespace Bakery

theorem location?_eq {c : Craft} (hc : c ∈ pipeline.crafts) {name : String} (h : c.Touches name) :
    catalog.location? name (c.namespaceFor .empty []) = some ⟨"memory", name⟩ := by
  simp only [pipeline, List.mem_cons, List.not_mem_nil, or_false] at hc
  have hargs : c.namespaceFor .empty [] = [] := by
    rcases hc with rfl | rfl <;> rfl
  have hname : name = "flour" ∨ name = "bread" := by
    rcases hc with rfl | rfl <;> simp [Craft.Touches, oven, mill] at h <;> grind
  rw [hargs]
  rcases hname with rfl | rfl <;> decide +kernel

theorem separate : Separate catalog .empty pipeline.crafts := by
  constructor
  · intro c hc name h l hl
    rw [location?_eq hc h] at hl
    exact Option.some.inj hl ▸ rfl
  · intro c hc d hd x y hx hy hne l hl hl'
    rw [location?_eq hc hx] at hl
    rw [location?_eq hd hy, ← hl] at hl'
    exact hne (congrArg Location.path (Option.some.inj hl')).symm

end Bakery

open Bakery in
theorem Pipeline.Built.artifact_received_bakery :
    ∃ calls s, pipeline.Progress catalog [] store calls [oven] s ∧
      pipeline.run catalog [] store = pipeline.resume catalog [oven] s ∧
      (∃ call ∈ calls, call.craft = mill) ∧
      oven.input catalog s.context s.store (oven.namespaceFor s.context [])
        ⟨"flour", .artifact, none⟩ = .ok (.string "rye") := by
  obtain ⟨calls, s, progress⟩ := exists_progress
  have built : pipeline.Built := .ofCrafts ofCrafts_eq
  have hproducer : mill ∈ pipeline.crafts := .tail _ (.head _)
  have hne : mill ≠ oven := fun h => absurd (congrArg Craft.id h) (by decide)
  have same : catalog.location? "flour" (mill.namespaceFor .empty []) =
      catalog.location? "flour" (oven.namespaceFor .empty []) := rfl
  obtain ⟨hrun, call, hcall, hcraft, hbody, value, houtput, -, -, hreceived⟩ :=
    built.artifact_received (Catalog.fileAdapters_builtin _ _) ⟨[], rfl⟩ rfl separate progress
      (.head _) rfl rfl hproducer hne (.head _) same
  have hvalue : value = .string "rye" := by
    have hreturned := Except.ok.inj hbody
    rw [← hreturned] at houtput
    exact (Option.some.inj houtput).symm
  have keeps : catalog.Keeps "flour" .plain [] := ⟨_, rfl, rfl, rfl⟩
  rw [hvalue] at hreceived
  exact ⟨calls, s, progress, hrun, ⟨call, hcall, hcraft⟩, hreceived [] keeps⟩

/-- A run has come to a craft that requires an artifact, without default, which another craft of the
pipeline makes. Artifacts of different names are kept apart in memory, and no argument is a
block. -/
structure Pipeline.Awaits (p : Pipeline) (catalog : Catalog) (args : Mapping) (store : Store)
    (calls : List Call) (craft producer : Craft) (s : RunState) (r : Requirement) : Prop where
  built : p.Built
  adapters : catalog.adapters = Adapter.builtin
  memory : store.HasMemory
  inMemory : ∀ name given l, catalog.location? name given = some l → l.scheme = "memory"
  apart : ∀ x y given other l, x ≠ y → catalog.location? x given = some l →
    catalog.location? y other ≠ some l
  blockless : ∀ key ∈ Fields.keys args, key ∉ p.crafts.map (·.name)
  progress : ∃ left, p.Progress catalog args store calls (craft :: left) s
  required : r ∈ craft.contract.required
  artifact : r.kind = .artifact
  default : r.default? = none
  member : producer ∈ p.crafts
  other : producer ≠ craft
  produced : ⟨r.name, .artifact⟩ ∈ producer.contract.produced

/-- The craft loads what the producer has returned. -/
def Pipeline.Receives (catalog : Catalog) (calls : List Call) (craft producer : Craft)
    (s : RunState) (r : Requirement) : Prop :=
  ∃ call ∈ calls, call.craft = producer ∧ ∃ value, Fields.get? r.name call.outputs = some value ∧
    craft.input catalog s.context s.store (craft.namespaceFor s.context []) r = .ok value

namespace Shifts

def mill (flour : Value) : Craft where
  id := 0
  name := "mill"
  contract := ⟨[⟨"shift", .param, some (.string "day")⟩], [⟨"flour", .artifact⟩]⟩
  body := fun _ => .ok [("flour", flour)]
  hooks := []

def oven : Craft where
  id := 1
  name := "oven"
  contract := ⟨[⟨"flour", .artifact, none⟩, ⟨"shift", .param, some (.string "night")⟩],
    [⟨"bread", .volatile⟩]⟩
  body := fun i => return [("bread", ← i.get "flour")]
  hooks := []

def pipeline (flour : Value) : Pipeline :=
  ⟨"bakery", [mill flour, oven], [0, 1], []⟩

theorem ofCrafts_eq (flour : Value) :
    Pipeline.ofCrafts "bakery" [mill flour, oven] = .ok (pipeline flour) := rfl

def catalog (type path : String) : Catalog :=
  ⟨.empty, [("flour", ⟨"flour", type, [("path", .string path)], [], [], [], []⟩)], Adapter.builtin⟩

def grinding (type path : String) (flour : Value) : Except Fault Unit × RunState :=
  Run.exec ((mill flour).invoke (catalog type path) []) ⟨.empty, Bakery.store, []⟩

/-- The run comes to the oven when the mill has saved the flour. -/
def milled (type path : String) (flour : Value) : RunState :=
  (grinding type path flour).2

def milling (flour : Value) : Call :=
  ⟨mill flour, [("shift", .string "day")],
    ⟨"mill", [("shift", .string "day")], [("shift", .param)]⟩, [("flour", flour)]⟩

/-- What the oven finds, as text. -/
def found? (type path : String) (flour : Value) : Option String :=
  let s := milled type path flour
  (oven.input (catalog type path) s.context s.store (oven.namespaceFor s.context [])
    ⟨"flour", .artifact, none⟩).toOption.map Value.stringify

variable {type path : String} {flour : Value}

theorem not_receives (h : found? type path flour ≠ some flour.stringify) :
    ¬ Pipeline.Receives (catalog type path) [milling flour] oven (mill flour)
      (milled type path flour) ⟨"flour", .artifact, none⟩ := by
  rintro ⟨call, hcall, -, value, hvalue, hinput⟩
  obtain rfl := List.mem_singleton.1 hcall
  obtain rfl : flour = value := Option.some.inj hvalue
  exact h (by rw [found?, hinput]; rfl)

section Kept

variable (hpath : ∀ args v, renderValue ⟨.empty, args, "flour"⟩ (.call false) (.string path) =
  .ok v → ∃ rest, v = .string ("memory://" ++ rest))
include hpath

theorem location?_eq_some {name : String} {args : Mapping} {l : Location}
    (h : (catalog type path).location? name args = some l) :
    name = "flour" ∧ l.scheme = "memory" := by
  obtain ⟨rd, text, hresolve, htext, rfl⟩ := Catalog.location?_eq_some.1 h
  obtain ⟨d, hd, hresolve⟩ := bind_eq_ok.1 hresolve
  obtain ⟨extra, hextra, hrd⟩ := bind_eq_ok.1 hresolve
  obtain rfl := Except.ok.inj hrd
  have hname : name = "flour" := by
    by_contra hne
    rw [Catalog.lookup, Catalog.declaration?] at hd
    simp [catalog, Fields.get?, Ne.symm hne] at hd
  subst hname
  refine ⟨rfl, ?_⟩
  obtain rfl := Except.ok.inj hd
  obtain ⟨v, hv, hrest⟩ := bind_eq_ok.1 hextra
  obtain ⟨_, hnil, hcons⟩ := bind_eq_ok.1 hrest
  obtain rfl := Except.ok.inj hcons
  rw [Catalog.resolveField] at hv
  split at hv
  · rename_i w hrender
    obtain ⟨rest, rfl⟩ := hpath _ _ hrender
    obtain rfl := Except.ok.inj hv
    obtain rfl := Option.some.inj htext
    exact congrArg Location.scheme (Location.parse_memory rest)
  · cases hv
  · cases hv

theorem awaits (h : (grinding type path flour).1.isOk) :
    (pipeline flour).Awaits (catalog type path) [] Bakery.store [milling flour] oven (mill flour)
      (milled type path flour) ⟨"flour", .artifact, none⟩ where
  built := .ofCrafts (ofCrafts_eq flour)
  adapters := rfl
  memory := ⟨[], rfl⟩
  inMemory _ _ _ hl := (location?_eq_some hpath hl).2
  apart x y given other l hne hx hy :=
    hne ((location?_eq_some hpath hx).1.trans (location?_eq_some hpath hy).1.symm)
  blockless := by simp [Fields.keys]
  progress := by
    have finished : (grinding type path flour).1 = .ok () := by
      cases hresult : (grinding type path flour).1 with
      | ok a => rfl
      | error e => simp [hresult, Except.isOk, Except.toBool] at h
    have takes : (milling flour).Takes (catalog type path) ⟨.empty, Bakery.store, []⟩
        (milled type path flour) := ⟨rfl, rfl, rfl, Prod.ext finished rfl⟩
    exact ⟨[], ⟨.empty, _, rfl, rfl, .cons takes (.nil _)⟩, rfl⟩
  required := .head _
  artifact := rfl
  default := rfl
  member := .head _
  other := by simp [mill, oven]
  produced := .head _

end Kept

/-- Flour that is kept by shift. -/
theorem render_shift {args : Mapping} {v : Value}
    (h : renderValue ⟨.empty, args, "flour"⟩ (.call false) (.string "memory://!\x7bshift\x7d") =
      .ok v) : ∃ rest, v = .string ("memory://" ++ rest) := by
  have hchars : Segment.ofChars "memory://!\x7bshift\x7d".toList =
      .ok [.literal "memory://", .placeholder ⟨.dynamic, "shift", "!\x7bshift\x7d", 9⟩] := by
    decide +kernel
  rw [renderValue, renderText, Expression.renderText, Segment.parse, hchars] at h
  obtain ⟨segments, hparse, h⟩ := bind_eq_ok.1 h
  obtain rfl := Except.ok.inj hparse
  obtain ⟨text, htext, hv⟩ := bind_eq_ok.1 h
  obtain ⟨rest, -, hconcat⟩ := bind_eq_ok.1 htext
  obtain rfl := Except.ok.inj hconcat
  exact ⟨rest, (Except.ok.inj hv).symm⟩

theorem render_fixed {args : Mapping} {v : Value}
    (h : renderValue ⟨.empty, args, "flour"⟩ (.call false) (.string "memory://flour") = .ok v) :
    ∃ rest, v = .string ("memory://" ++ rest) := by
  rw [renderValue, renderText_plain (by decide)] at h
  exact ⟨"flour", (Except.ok.inj h).symm⟩

/-- The number `5e+32`, which is read as its neighbour. -/
def weight : Value :=
  .float ⟨false, 6938893903907228, 56⟩

end Shifts

open Shifts in
/-- A craft need not find what another one has made: defaults of their own parameters may lead them
to different locations. Where they look at the same one, a number kept as JSON may come back as
another. -/
theorem Pipeline.Built.not_artifact_received :
    (¬ ∀ (p : Pipeline) (catalog : Catalog) (args : Mapping) (store : Store) (calls : List Call)
      (craft producer : Craft) (s : RunState) (r : Requirement),
      p.Awaits catalog args store calls craft producer s r →
      Receives catalog calls craft producer s r) ∧
    ¬ ∀ (p : Pipeline) (catalog : Catalog) (args : Mapping) (store : Store) (calls : List Call)
      (craft producer : Craft) (s : RunState) (r : Requirement),
      p.Awaits catalog args store calls craft producer s r →
      catalog.location? r.name (producer.namespaceFor s.context []) =
        catalog.location? r.name (craft.namespaceFor s.context []) →
      Receives catalog calls craft producer s r := by
  constructor
  · intro hall
    have waits : (pipeline (.string "rye")).Awaits (catalog "text" "memory://!\x7bshift\x7d") []
        Bakery.store [milling _] oven (mill _) (milled _ _ _) _ :=
      awaits (fun _ _ => render_shift) (by decide +kernel)
    exact not_receives (by decide +kernel) (hall _ _ _ _ _ _ _ _ _ waits)
  · intro hall
    have waits : (pipeline weight).Awaits (catalog "json" "memory://flour") [] Bakery.store
        [milling _] oven (mill _) (milled _ _ _) _ :=
      awaits (fun _ _ => render_fixed) (by decide +kernel)
    exact not_receives (by decide +kernel) (hall _ _ _ _ _ _ _ _ _ waits (by decide +kernel))

end ArtifactFlow
