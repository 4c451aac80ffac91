import ArtifactFlow.Proofs.Run.Artifacts
import ArtifactFlow.Proofs.Run.Parameters

/-!
How far the arguments for one craft reach. Two runs from the same store whose arguments differ for
one craft alone may differ in what that craft makes, and in what is made by those that need it,
directly or through others. All other crafts are called with the same inputs and make the same.
-/

namespace ArtifactFlow

/-- An artifact of the craft is kept at the location. -/
def Craft.WritesTo (craft : Craft) (catalog : Catalog) (context : Context) (l : Location) : Prop :=
  ∃ name, ⟨name, .artifact⟩ ∈ craft.contract.produced ∧
    catalog.location? name (craft.namespaceFor context []) = some l

theorem Separate.memory_of_writesTo {catalog : Catalog} {context : Context} {crafts : List Craft}
    (separate : Separate catalog context crafts) {c : Craft} (hc : c ∈ crafts) {l : Location}
    (h : c.WritesTo catalog context l) : l.scheme = "memory" := by
  obtain ⟨name, hmade, hlocation⟩ := h
  exact separate.memory c hc name (.inr hmade) l hlocation

/-- Nothing has changed but what the craft makes. -/
structure Craft.Spares (craft : Craft) (catalog : Catalog) (context : Context) (s t : RunState) :
    Prop where
  within : t.Within context
  volatiles : ∀ name, ⟨name, .volatile⟩ ∉ craft.contract.produced →
    t.context.volatile? name = s.context.volatile? name
  stored : ∀ l, ¬ craft.WritesTo catalog context l → t.store.readAt l = s.store.readAt l

theorem Catalog.readAt_of_saves_agree {catalog : Catalog} (files : catalog.FileAdapters)
    {args others : Mapping} (agree : args.Agree others) {payloads : Mapping} {s t s' t' : Store}
    (memory : s.HasMemory) (memory' : s'.HasMemory)
    (inMemory : ∀ name ∈ Fields.keys payloads, ∀ l, catalog.location? name args = some l →
      l.scheme = "memory")
    (h : catalog.Saves (payloads.map fun (name, payload) => ⟨name, payload, args⟩) s t)
    (h' : catalog.Saves (payloads.map fun (name, payload) => ⟨name, payload, others⟩) s' t')
    {l : Location} (hread : s.readAt l = s'.readAt l) : t.readAt l = t'.readAt l := by
  induction payloads generalizing s s' with
  | nil =>
      obtain rfl : s = t := h
      obtain rfl : s' = t' := h'
      exact hread
  | cons entry rest ih =>
      obtain ⟨u, hsave, hrest⟩ := h
      obtain ⟨u', hsave', hrest'⟩ := h'
      obtain ⟨hscheme, inMemory⟩ := List.forall_mem_cons.1 inMemory
      obtain ⟨codec, options, keeps⟩ := exists_keeps files hsave
      obtain ⟨m, bytes, hlocation, hencode, hwrite⟩ := keeps.save_eq_ok hsave
      obtain ⟨m', bytes', hlocation', hencode', hwrite'⟩ := keeps.save_eq_ok hsave'
      rw [← location?_congr agree, hlocation] at hlocation'
      obtain rfl := Option.some.inj hlocation'
      obtain rfl := Except.ok.inj (hencode.symm.trans hencode')
      obtain ⟨v, hv, hmemory, -, hstored⟩ := Store.writeAt_memory memory (hscheme m hlocation) bytes
      obtain ⟨v', hv', hmemory', -, hstored'⟩ :=
        Store.writeAt_memory memory' (hscheme m hlocation) bytes
      obtain rfl : v = u := (Prod.mk.inj (hv.symm.trans hwrite)).2
      obtain rfl : v' = u' := (Prod.mk.inj (hv'.symm.trans hwrite')).2
      refine ih hmemory hmemory' inMemory hrest hrest' ?_
      rw [hstored, hstored', hread]

namespace Call

variable {catalog : Catalog} {context other : Context} {call call' : Call} {s t s' t' : RunState}

theorem Takes.volatile?_eq (h : call.Takes catalog s t) (name : String) :
    t.context.volatile? name = (s.context.volatile? name).or (Fields.get? name call.kept) := by
  rw [Context.volatile?, h.spec.2.volatiles, Fields.get?_append]
  rfl

theorem Takes.spares (files : catalog.FileAdapters) (within : s.Within context)
    (memory : ∀ l, call.craft.WritesTo catalog context l → l.scheme = "memory")
    (h : call.Takes catalog s t) : call.craft.Spares catalog context s t := by
  obtain ⟨present, moves⟩ := h.spec
  have hargs := h.args.trans (Craft.namespaceFor_within within [])
  have writes {x : Saving} (hx : x ∈ call.saved) {l : Location}
      (hl : catalog.location? x.name x.args = some l) : call.craft.WritesTo catalog context l := by
    obtain ⟨hsame, hproduced⟩ := mem_saved hx
    exact ⟨x.name, hproduced, by rw [← hargs, ← hsame, hl]⟩
  obtain ⟨hmemory, hread⟩ := Catalog.readAt_of_saves files within.memory
    (fun x hx l hl => memory l (writes hx hl)) moves.saves
  refine ⟨⟨moves.shared.trans within.shared, moves.blocks.trans within.blocks, hmemory⟩, ?_, ?_⟩
  · intro name hname
    have hnone : Fields.get? name call.kept = none := by
      rw [Fields.get?_eq_none_iff, keys_kept present, Contract.mem_productionsOf]
      exact hname
    rw [h.volatile?_eq, hnone, Option.or_none]
  · intro l hl
    exact hread l fun x hx heq => hl (writes hx heq)

theorem Takes.alike (files : catalog.FileAdapters) (memory : s.store.HasMemory)
    (memory' : s'.store.HasMemory)
    (inMemory : ∀ name, ⟨name, .artifact⟩ ∈ call.craft.contract.produced →
      ∀ l, catalog.location? name call.args = some l → l.scheme = "memory")
    (h : call.Takes catalog s t) (h' : call'.Takes catalog s' t')
    (hcraft : call.craft = call'.craft) (args : call.args.Agree call'.args)
    (inputs : call.inputs = call'.inputs) : call.outputs = call'.outputs ∧
      (∀ name, s.context.volatile? name = s'.context.volatile? name →
        t.context.volatile? name = t'.context.volatile? name) ∧
      ∀ l, s.store.readAt l = s'.store.readAt l → t.store.readAt l = t'.store.readAt l := by
  have houtputs : call.outputs = call'.outputs := by
    have hreturned := h'.returned
    rw [← hcraft, ← inputs, h.returned] at hreturned
    exact Except.ok.inj hreturned
  refine ⟨houtputs, fun name hname => ?_, fun l hl => ?_⟩
  · rw [h.volatile?_eq, h'.volatile?_eq, hname, kept, kept, houtputs, hcraft]
  · have hsaves := h.spec.2.saves
    have hsaves' := h'.spec.2.saves
    rw [saved, Production.savings] at hsaves hsaves'
    rw [← houtputs, ← hcraft] at hsaves'
    refine Catalog.readAt_of_saves_agree files args memory memory' ?_ hsaves hsaves' hl
    intro _ hname
    obtain ⟨⟨name, payload⟩, hentry, rfl⟩ := List.mem_map.1 hname
    exact inMemory name (Production.mem_delivered_iff.1 hentry).1

end Call

/-- Two runs of the same crafts whose arguments differ for some of them. Who needs what one of these
makes is one of them as well. -/
structure Confined (catalog : Catalog) (crafts : List Craft) (context other : Context)
    (differs : Craft → Prop) : Prop where
  files : catalog.FileAdapters
  left : Separate catalog context crafts
  right : Separate catalog other crafts
  arguments : ∀ d ∈ crafts, ¬ differs d →
    (d.namespaceFor context []).Agree (d.namespaceFor other [])
  closed : ∀ c ∈ crafts, ∀ d ∈ crafts, differs c → c ≠ d → c.Supplies d → differs d

/-- Two states of such runs that differ at most by what these crafts have made. -/
structure RunState.AgreeBut (catalog : Catalog) (crafts : List Craft) (context other : Context)
    (differs : Craft → Prop) (s t : RunState) : Prop where
  left : s.Within context
  right : t.Within other
  volatiles : ∀ name, (∀ c ∈ crafts, differs c → ⟨name, .volatile⟩ ∉ c.contract.produced) →
    s.context.volatile? name = t.context.volatile? name
  stored : ∀ l, (∀ c ∈ crafts, differs c →
      ¬ c.WritesTo catalog context l ∧ ¬ c.WritesTo catalog other l) →
    s.store.readAt l = t.store.readAt l

/-- Runs from one store agree before their first call. -/
theorem RunState.AgreeBut.start {p : Pipeline} {catalog : Catalog} {crafts : List Craft}
    {args others : Mapping} {names : List String} {context other : Context} {store : Store}
    {s t : RunState} (differs : Craft → Prop) (memory : store.HasMemory)
    (hcontext : Context.ofArgs args names = .ok context)
    (hother : Context.ofArgs others names = .ok other)
    (hs : Run.exec (Hook.callBefore p.name p.hooks) ⟨context, store, []⟩ = (.ok (), s))
    (ht : Run.exec (Hook.callBefore p.name p.hooks) ⟨other, store, []⟩ = (.ok (), t)) :
    RunState.AgreeBut catalog crafts context other differs s t := by
  obtain ⟨hcontext', hstore⟩ := (Hook.watches_callBefore _ _).unchanged hs
  obtain ⟨hother', hstore'⟩ := (Hook.watches_callBefore _ _).unchanged ht
  have hempty := (Context.fresh_of_ofArgs hcontext).1
  have hempty' := (Context.fresh_of_ofArgs hother).1
  refine ⟨⟨by rw [hcontext'], by rw [hcontext'], hstore ▸ memory⟩,
    ⟨by rw [hother'], by rw [hother'], hstore' ▸ memory⟩, fun name _ => ?_, fun l _ => ?_⟩
  · rw [Context.volatile?, Context.volatile?, hcontext', hother', hempty, hempty']
  · rw [hstore, hstore']

namespace Confined

variable {catalog : Catalog} {crafts : List Craft} {context other : Context}
  {differs : Craft → Prop} (confined : Confined catalog crafts context other differs)
  {s t s' t' : RunState}
include confined

/-- Nothing that a craft needs comes from those that differ, unless it is one of them. -/
theorem not_made {c d : Craft} (hc : c ∈ crafts) (hd : d ∈ crafts) (hdiffers : differs c)
    (hsame : ¬ differs d) {r : Requirement} (hr : r ∈ d.contract.required)
    (hkind : r.kind ≠ .param) {kind : OutputKind} : ⟨r.name, kind⟩ ∉ c.contract.produced := by
  intro hmade
  have hne : c ≠ d := fun heq => hsame (heq ▸ hdiffers)
  exact hsame (confined.closed c hc d hd hdiffers hne (Craft.supplies_of_mem hmade hr hkind))

theorem input_eq (agree : RunState.AgreeBut catalog crafts context other differs s t)
    {d : Craft} (hd : d ∈ crafts) (hsame : ¬ differs d) {r : Requirement}
    (hr : r ∈ d.contract.required) :
    d.input catalog s.context s.store (d.namespaceFor context []) r =
      d.input catalog t.context t.store (d.namespaceFor other []) r := by
  have hargs := confined.arguments d hd hsame
  rw [Craft.input, Craft.input]
  cases hkind : r.kind with
  | param => rw [hargs]
  | volatile =>
      have hvolatile := agree.volatiles r.name fun c hc hdiffers =>
        confined.not_made hc hd hdiffers hsame hr (by simp [hkind])
      rw [hvolatile]
  | artifact =>
      have htouches : d.Touches r.name := .inl ⟨r, hr, hkind, rfl⟩
      have hload : catalog.load r.name (d.namespaceFor context []) s.store =
          catalog.load r.name (d.namespaceFor other []) t.store := by
        rw [← Catalog.load_congr_args hargs confined.files]
        -- Whoever differs makes no artifact of this name, and writes others elsewhere.
        refine Catalog.load_congr confined.files fun l hl => ?_
        have hl' := hl
        rw [Catalog.location?_congr hargs] at hl'
        refine agree.stored l fun c hc hdiffers => ?_
        have hne {name : String} (hmade : ⟨name, .artifact⟩ ∈ c.contract.produced) :
            r.name ≠ name := by
          rintro rfl
          exact confined.not_made hc hd hdiffers hsame hr (by simp [hkind]) hmade
        constructor
        · rintro ⟨name, hmade, hwritten⟩
          exact confined.left.apart d hd c hc _ _ htouches (.inr hmade) (hne hmade) l hl hwritten
        · rintro ⟨name, hmade, hwritten⟩
          exact confined.right.apart d hd c hc _ _ htouches (.inr hmade) (hne hmade) l hl' hwritten
      rw [hload]

theorem inputs_eq (agree : RunState.AgreeBut catalog crafts context other differs s t)
    {call call' : Call} (hcraft : call.craft = call'.craft) (hd : call.craft ∈ crafts)
    (hsame : ¬ differs call.craft) (h : call.Takes catalog s s') (h' : call'.Takes catalog t t') :
    call.inputs = call'.inputs := by
  have hgathered := h.gathered
  have hgathered' := h'.gathered
  rw [h.args, Craft.namespaceFor_within agree.left] at hgathered
  rw [h'.args, Craft.namespaceFor_within agree.right, ← hcraft] at hgathered'
  have hinputs : call.craft.inputs catalog s.context s.store (call.craft.namespaceFor context []) =
      call.craft.inputs catalog t.context t.store (call.craft.namespaceFor other []) :=
    foldlM_congr fun acc r hr => by rw [confined.input_eq agree hd hsame hr]
  exact Except.ok.inj (hgathered.symm.trans (hinputs.trans hgathered'))

theorem agree_step (agree : RunState.AgreeBut catalog crafts context other differs s s')
    {call call' : Call} (hcraft : call.craft = call'.craft) (hd : call.craft ∈ crafts)
    (h : call.Takes catalog s t) (h' : call'.Takes catalog s' t') :
    RunState.AgreeBut catalog crafts context other differs t t' ∧
      (¬ differs call.craft → call'.inputs = call.inputs ∧ call'.outputs = call.outputs) := by
  have hd' : call'.craft ∈ crafts := hcraft ▸ hd
  have spares := h.spares confined.files agree.left fun _ => confined.left.memory_of_writesTo hd
  have spares' := h'.spares confined.files agree.right fun _ =>
    confined.right.memory_of_writesTo hd'
  rw [← hcraft] at spares'
  by_cases hdiffers : differs call.craft
  · refine ⟨⟨spares.within, spares'.within, fun name hname => ?_, fun l hl => ?_⟩,
      fun hsame => absurd hdiffers hsame⟩
    · have hnot := hname _ hd hdiffers
      rw [spares.volatiles name hnot, spares'.volatiles name hnot, agree.volatiles name hname]
    · obtain ⟨hleft, hright⟩ := hl _ hd hdiffers
      rw [spares.stored l hleft, spares'.stored l hright, agree.stored l hl]
  · have hinputs := confined.inputs_eq agree hcraft hd hdiffers h h'
    have hargs := h.args.trans (Craft.namespaceFor_within agree.left [])
    have hargs' := h'.args.trans (Craft.namespaceFor_within agree.right [])
    have args : call.args.Agree call'.args := by
      rw [hargs, hargs', ← hcraft]
      exact confined.arguments _ hd hdiffers
    have inMemory : ∀ name, ⟨name, .artifact⟩ ∈ call.craft.contract.produced →
        ∀ l, catalog.location? name call.args = some l → l.scheme = "memory" :=
      fun name hmade _ hl => confined.left.memory_of_writesTo hd ⟨name, hmade, hargs ▸ hl⟩
    obtain ⟨houtputs, hvolatiles, hstored⟩ := h.alike confined.files agree.left.memory
      agree.right.memory inMemory h' hcraft args hinputs
    refine ⟨⟨spares.within, spares'.within, fun name hname => ?_, fun l hl => ?_⟩,
      fun _ => ⟨hinputs.symm, houtputs.symm⟩⟩
    · exact hvolatiles name (agree.volatiles name hname)
    · exact hstored l (agree.stored l hl)

/-- Crafts that do not differ are called alike all through the runs. -/
theorem calls_alike {calls calls' : List Call} {u u' : RunState}
    (agree : RunState.AgreeBut catalog crafts context other differs s s')
    (h : Course catalog s calls u) (h' : Course catalog s' calls' u')
    (hcrafts : calls.map (·.craft) = calls'.map (·.craft))
    (hsub : ∀ call ∈ calls, call.craft ∈ crafts) :
    ∀ call ∈ calls, ¬ differs call.craft → ∃ call' ∈ calls', call'.craft = call.craft ∧
      call'.inputs = call.inputs ∧ call'.outputs = call.outputs := by
  induction h generalizing s' calls' with
  | nil s => simp
  | @cons s t u call calls hcall hrest ih =>
      cases h' with
      | nil => simp at hcrafts
      | @cons _ t' _ call' calls' hcall' hrest' =>
          obtain ⟨hcraft, hcrafts⟩ := List.cons.inj hcrafts
          obtain ⟨hd, hsub⟩ := List.forall_mem_cons.1 hsub
          obtain ⟨agree, halike⟩ := confined.agree_step agree hcraft hd hcall hcall'
          refine List.forall_mem_cons.2 ⟨fun hsame => ?_, fun other hother hsame => ?_⟩
          · exact ⟨call', List.mem_cons_self, hcraft.symm, halike hsame⟩
          · obtain ⟨found, hfound, hspec⟩ := ih agree hrest' hcrafts hsub other hother hsame
            exact ⟨found, List.mem_cons_of_mem call' hfound, hspec⟩

end Confined

namespace Pipeline

/-- In the graph of the pipeline a path leads from the first craft to the second one. -/
def Downstream (p : Pipeline) (c d : Craft) : Prop :=
  ∃ g i j, p.graph = .ok g ∧ p.crafts[i]? = some c ∧ p.crafts[j]? = some d ∧
    Relation.TransGen g.Leads i j

variable {p : Pipeline} {catalog : Catalog} {args others : Mapping} {store : Store}
  {c d e : Craft}

theorem downstream_iff (ordered : p.WellOrdered) (hc : c ∈ p.crafts) :
    p.Downstream c d ↔ Relation.TransGen (Craft.FeedsAmong p.crafts) c d := by
  obtain ⟨g, hg, -⟩ := ordered.order_eq
  have hleads : g.Leads = Graph.Feeds p.crafts := by
    funext i j
    exact propext (Graph.leads_iff_feeds hg)
  constructor
  · rintro ⟨g', i, j, hg', hi, hj, hpath⟩
    obtain rfl := Except.ok.inj (hg.symm.trans hg')
    obtain ⟨e, he, hpath⟩ := Graph.transGen_feedsAmong ordered.nodup (hleads ▸ hpath) hi
    obtain rfl := Option.some.inj (he.symm.trans hj)
    exact hpath
  · intro hpath
    obtain ⟨i, hi⟩ := List.mem_iff_getElem?.1 hc
    obtain ⟨j, hj, hpath⟩ := Graph.transGen_feeds ordered.nodup hpath hi
    exact ⟨g, i, j, hg, hi, hj, hleads ▸ hpath⟩

theorem WellOrdered.confined (ordered : p.WellOrdered) (files : catalog.FileAdapters)
    (distinct : Fields.Distinct args) (distinct' : Fields.Distinct others)
    (hc : c ∈ p.crafts)
    (elsewhere : ∀ key, key ≠ c.name → Fields.get? key args = Fields.get? key others)
    {context other : Context} (hcontext : Context.ofArgs args (p.crafts.map (·.name)) = .ok context)
    (hother : Context.ofArgs others (p.crafts.map (·.name)) = .ok other)
    (left : Separate catalog context p.crafts) (right : Separate catalog other p.crafts) :
    Confined catalog p.crafts context other fun d => d = c ∨ p.Downstream c d := by
  refine ⟨files, left, right, fun d hd hsame => ?_, fun d hd e he hdiffers hne hsupplies => ?_⟩
  · have hname : d.name ≠ c.name := fun heq => hsame (.inl (ordered.one_name d hd c hc heq))
    refine Craft.namespaceFor_agree (Context.sorts_of_ofArgs distinct hcontext)
      (Context.sorts_of_ofArgs distinct' hother) (List.mem_map_of_mem hd) fun key hkey => ?_
    refine elsewhere key fun heq => ?_
    rcases hkey with hkey | rfl
    · exact hkey (heq ▸ List.mem_map_of_mem hc)
    · exact hname heq
  · have hfeeds : Craft.FeedsAmong p.crafts d e := ⟨hd, he, hne, hsupplies⟩
    rw [downstream_iff ordered hc] at hdiffers ⊢
    rcases hdiffers with rfl | hpath
    · exact .inr (.single hfeeds)
    · exact .inr (hpath.tail hfeeds)

/-- The arguments for a craft reach the crafts downstream of it and no others. -/
theorem Built.confined_influence (built : p.Built) (files : catalog.FileAdapters)
    (memory : store.HasMemory) (hc : c ∈ p.crafts) (distinct : Fields.Distinct args)
    (distinct' : Fields.Distinct others)
    (elsewhere : ∀ key, key ≠ c.name → Fields.get? key args = Fields.get? key others)
    (separate : ∀ given ∈ [args, others], ∀ context,
      Context.ofArgs given (p.crafts.map (·.name)) = .ok context →
        Separate catalog context p.crafts)
    {outcome outcome' : Outcome} (h : (p.run catalog args store).result = .ok outcome)
    (h' : (p.run catalog others store).result = .ok outcome') :
    ∃ calls calls',
      p.Account catalog args store calls outcome (p.run catalog args store).store ∧
      p.Account catalog others store calls' outcome' (p.run catalog others store).store ∧
      ∀ d ∈ p.crafts, d ≠ c → ¬ p.Downstream c d →
        ∃ call ∈ calls, ∃ call' ∈ calls', call.craft = d ∧ call'.craft = d ∧
          call'.inputs = call.inputs ∧ call'.outputs = call.outputs ∧
          ∀ name, ⟨name, .volatile⟩ ∈ d.contract.produced →
            Fields.get? name outcome'.volatiles = Fields.get? name outcome.volatiles := by
  have ordered := built.wellOrdered
  obtain ⟨calls, account⟩ := ordered.account h
  obtain ⟨calls', account'⟩ := ordered.account h'
  obtain ⟨s, progress⟩ := account.progress
  obtain ⟨s', progress'⟩ := account'.progress
  obtain ⟨context, start, hcontext, hbefore, course⟩ := progress.course
  obtain ⟨other, start', hother, hbefore', course'⟩ := progress'.course
  have confined := ordered.confined files distinct distinct' hc elsewhere hcontext hother
    (separate args (by simp) context hcontext) (separate others (by simp) other hother)
  have agree : RunState.AgreeBut catalog p.crafts context other
      (fun d => d = c ∨ p.Downstream c d) start start' :=
    .start _ memory hcontext hother hbefore hbefore'
  have hordered := progress.ordered
  have hordered' := progress'.ordered
  rw [List.append_nil] at hordered hordered'
  have hsub : ∀ call ∈ calls, call.craft ∈ p.crafts := fun call => progress.mem_crafts ordered
  have halike := confined.calls_alike agree course course' (hordered.symm.trans hordered') hsub
  refine ⟨calls, calls', account, account', fun d hd hne hdownstream => ?_⟩
  have hcalled := ((progress.mem_crafts_iff ordered).1 hd).resolve_right List.not_mem_nil
  obtain ⟨call, hcall, rfl⟩ := List.mem_map.1 hcalled
  obtain ⟨call', hcall', hcraft, hinputs, houtputs⟩ :=
    halike call hcall (not_or.2 ⟨hne, hdownstream⟩)
  refine ⟨call, hcall, call', hcall', rfl, hcraft, hinputs, houtputs, fun name hname => ?_⟩
  obtain ⟨value, hvalue, hkept⟩ := account.values call hcall name hname
  obtain ⟨value', hvalue', hkept'⟩ := account'.values call' hcall' name (hcraft ▸ hname)
  rw [hkept, hkept', ← hvalue, ← hvalue', houtputs]

end Pipeline

namespace Tearoom

def kettle : Craft where
  id := 0
  name := "kettle"
  contract := ⟨[⟨"heat", .param, none⟩], [⟨"water", .volatile⟩]⟩
  body := fun i => return [("water", ← i.get "heat")]
  hooks := []

def pot : Craft where
  id := 1
  name := "pot"
  contract := ⟨[⟨"water", .volatile, none⟩], [⟨"tea", .volatile⟩]⟩
  body := fun i => return [("tea", ← i.get "water")]
  hooks := []

def waiter : Craft where
  id := 2
  name := "waiter"
  contract := ⟨[⟨"guests", .param, none⟩], [⟨"cloth", .artifact⟩, ⟨"table", .volatile⟩]⟩
  body := fun i => return [("cloth", .string "white"), ("table", ← i.get "guests")]
  hooks := []

def catalog : Catalog :=
  ⟨.empty, [("cloth", ⟨"cloth", "text", [("path", .string "memory://cloth")], [], [], [], []⟩)],
    Adapter.builtin⟩

def pipeline : Pipeline :=
  ⟨"tearoom", [pot, kettle, waiter], [1, 0, 2], []⟩

def hot : Mapping := [("guests", .int 4), ("kettle", .mapping [("heat", .int 90)])]

def mild : Mapping := [("kettle", .mapping [("heat", .int 70)]), ("guests", .int 4)]

theorem ofCrafts_eq : Pipeline.ofCrafts "tearoom" [pot, kettle, waiter] = .ok pipeline := rfl

theorem touches_cloth {c : Craft} (hc : c ∈ pipeline.crafts) {name : String}
    (h : c.Touches name) : c = waiter ∧ name = "cloth" := by
  simp only [pipeline, List.mem_cons, List.not_mem_nil, or_false] at hc
  rcases hc with rfl | rfl | rfl <;> simp [Craft.Touches, pot, kettle, waiter] at h ⊢
  exact h

theorem separate {given : Mapping} (hgiven : given ∈ [hot, mild]) {context : Context}
    (hcontext : Context.ofArgs given (pipeline.crafts.map (·.name)) = .ok context) :
    Separate catalog context pipeline.crafts := by
  constructor
  · intro c hc name h l hl
    obtain ⟨rfl, rfl⟩ := touches_cloth hc h
    have hcloth : catalog.location? "cloth" (waiter.namespaceFor context []) =
        some ⟨"memory", "cloth"⟩ := by
      simp only [List.mem_cons, List.not_mem_nil, or_false] at hgiven
      rcases hgiven with rfl | rfl <;> obtain rfl := Except.ok.inj hcontext <;> decide +kernel
    obtain rfl := Option.some.inj (hcloth.symm.trans hl)
    rfl
  · intro c hc d hd x y hx hy hne
    exact absurd ((touches_cloth hc hx).2.trans (touches_cloth hd hy).2.symm) hne

theorem not_downstream : ¬ pipeline.Downstream kettle waiter := by
  have ordered := (Pipeline.Built.ofCrafts ofCrafts_eq).wellOrdered
  rw [Pipeline.downstream_iff ordered (.tail _ (.head _))]
  intro hpath
  obtain ⟨c, -, -, -, -, name, -, hneeds⟩ := Relation.TransGen.tail'_iff.1 hpath
  simp [Graph.needs, Contract.dependencies, waiter] at hneeds

end Tearoom

open Tearoom in
theorem Pipeline.Built.confined_influence_tearoom : ∃ calls calls',
    (∃ outcome final, pipeline.Account catalog hot Bakery.store calls outcome final) ∧
    (∃ outcome final, pipeline.Account catalog mild Bakery.store calls' outcome final) ∧
    ∃ call ∈ calls, ∃ call' ∈ calls', call.craft = waiter ∧ call'.craft = waiter ∧
      call'.inputs = call.inputs ∧ call'.outputs = call.outputs := by
  have hhot : (pipeline.run catalog hot Bakery.store).result =
      .ok ⟨[("water", .int 90), ("tea", .int 90), ("table", .int 4)], ["cloth"]⟩ := by
    cbv
  have hmild : (pipeline.run catalog mild Bakery.store).result =
      .ok ⟨[("water", .int 70), ("tea", .int 70), ("table", .int 4)], ["cloth"]⟩ := by
    cbv
  have elsewhere : ∀ key, key ≠ kettle.name → Fields.get? key hot = Fields.get? key mild := by
    intro key hkey
    have hne : "kettle" ≠ key := Ne.symm hkey
    simp [hot, mild, Fields.get?, hne]
  obtain ⟨calls, calls', account, account', halike⟩ :=
    Built.confined_influence (.ofCrafts ofCrafts_eq) (Catalog.fileAdapters_builtin _ _) ⟨[], rfl⟩
      (c := kettle) (.tail _ (.head _)) (by simp [Fields.Distinct, Fields.keys, hot])
      (by simp [Fields.Distinct, Fields.keys, mild]) elsewhere
      (fun given hgiven context => separate hgiven) hhot hmild
  obtain ⟨call, hcall, call', hcall', hcraft, hcraft', hinputs, houtputs, -⟩ :=
    halike waiter (.tail _ (.tail _ (.head _))) (by simp [waiter, kettle]) not_downstream
  exact ⟨calls, calls', ⟨_, _, account⟩, ⟨_, _, account'⟩, call, hcall, call', hcall', hcraft,
    hcraft', hinputs, houtputs⟩

end ArtifactFlow
