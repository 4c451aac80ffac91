import ArtifactFlow.Proofs.Placeholder.Plain

/-!
Rendering twice. Static placeholders are bound when a catalog is loaded and would be bound in the
same way later; a first pass that binds them alone makes no difference to a second one, as long as
what it puts into a text cannot become part of an opener there.
-/

namespace ArtifactFlow

open Placeholder

/-- A text that is there and has no character that an opener is made of. -/
def Inert (s : String) : Prop :=
  s ≠ "" ∧ ∀ c ∈ s.toList, ¬ Opens c

/-- The texts inside a value, at any depth. -/
inductive Value.Holds : Value → String → Prop where
  | text {s : String} : Holds (.string s) s
  | item {v : Value} {items : List Value} {s : String} :
      v ∈ items → Holds v s → Holds (.list items) s
  | field {key : String} {v : Value} {fields : List (String × Value)} {s : String} :
      (key, v) ∈ fields → Holds v s → Holds (.mapping fields) s

/-- The static placeholders of a text stand for values whose own text is inert. -/
def StaticConfig.InertIn (config : StaticConfig) (s : String) : Prop :=
  ∀ segments, Segment.parse s = .ok segments → ∀ p, .placeholder p ∈ segments →
    p.kind = .static → ∀ v, config.get? p.body = some v → Inert v.stringify

namespace Piece

/-- The value of a static placeholder. -/
def staticValue? (config : StaticConfig) (inner : List Char) : Option Value :=
  config.get? (String.ofList (Text.trim inner))

/-- The text that comes in place of a static placeholder. -/
def staticText (config : StaticConfig) (inner : List Char) : List Char :=
  ((staticValue? config inner).getD .null).stringify.toList

def settle (config : StaticConfig) : Piece → List Piece
  | .span .static inner => (staticText config inner).map char
  | p => [p]

@[simp] theorem settle_char (config : StaticConfig) (c : Char) :
    settle config (.char c) = [.char c] := rfl

@[simp] theorem settle_static (config : StaticConfig) (inner : List Char) :
    settle config (.span .static inner) = (staticText config inner).map char := rfl

@[simp] theorem settle_dynamic (config : StaticConfig) (inner : List Char) :
    settle config (.span .dynamic inner) = [.span .dynamic inner] := rfl

@[simp] theorem settle_expression (config : StaticConfig) (inner : List Char) :
    settle config (.span .expression inner) = [.span .expression inner] := rfl

/-- The pieces that are left when the static placeholders are bound. -/
def settleAll (config : StaticConfig) (ps : List Piece) : List Piece :=
  ps.flatMap (settle config)

@[simp] theorem settleAll_cons (config : StaticConfig) (p : Piece) (ps : List Piece) :
    settleAll config (p :: ps) = settle config p ++ settleAll config ps := rfl

variable {config : StaticConfig} {artifact : String} {args : Mapping} {mode : RenderMode}
  {ps : List Piece}

theorem binder_static {inner : List Char} {v : Value}
    (h : staticValue? config inner = some v) :
    mode.binder ⟨config, args, artifact⟩ (placeholder .static inner 0) = .ok (some v) := by
  have hresolve : config.resolve (String.ofList (Text.trim inner)) artifact = .ok v := by
    rw [StaticConfig.resolve, show config.get? _ = some v from h]
  cases mode <;> simp [RenderMode.binder, placeholder, hresolve]

theorem static_of_binder {inner : List Char} {found : Option Value}
    (h : mode.binder ⟨config, args, artifact⟩ (placeholder .static inner 0) = .ok found) :
    ∃ v, staticValue? config inner = some v ∧ found = some v := by
  cases hvalue : staticValue? config inner with
  | none =>
      have hresolve : config.resolve (String.ofList (Text.trim inner)) artifact =
          .error (.unresolvedStatic (String.ofList (Text.trim inner)) artifact) := by
        rw [StaticConfig.resolve, show config.get? _ = none from hvalue]
      cases mode <;> simp [RenderMode.binder, placeholder, hresolve] at h
  | some v =>
      rw [binder_static hvalue] at h
      exact ⟨v, rfl, (Except.ok.inj h).symm⟩

/-- A pass that binds static placeholders puts their values into the text, and needs all of them. -/
theorem concat_staticOnly {cs : List Char}
    (h : concat (RenderMode.staticOnly.binder ⟨config, args, artifact⟩) ps = .ok cs) :
    join (settleAll config ps) = cs ∧
      ∀ inner, .span .static inner ∈ ps → ∃ v, staticValue? config inner = some v := by
  induction ps generalizing cs with
  | nil => exact ⟨Except.ok.inj h, by simp⟩
  | cons p rest ih =>
      cases p with
      | char c =>
          obtain ⟨others, hothers, h⟩ := bind_eq_ok.1 h
          obtain ⟨hjoin, hall⟩ := ih hothers
          refine ⟨?_, fun inner hmem => hall inner (by simpa using hmem)⟩
          rw [← Except.ok.inj h, ← hjoin]
          rfl
      | span kind inner =>
          obtain ⟨found, hfound, h⟩ := bind_eq_ok.1 h
          obtain ⟨others, hothers, h⟩ := bind_eq_ok.1 h
          obtain ⟨hjoin, hall⟩ := ih hothers
          rw [← Except.ok.inj h, ← hjoin, settleAll_cons, join_append]
          cases kind with
          | static =>
              obtain ⟨v, hv, rfl⟩ := static_of_binder hfound
              refine ⟨by simp [settle, staticText, hv], ?_⟩
              intro other hmem
              rcases List.mem_cons.1 hmem with heq | hmem
              · obtain ⟨-, rfl⟩ := Piece.span.inj heq
                exact ⟨v, hv⟩
              · exact hall other hmem
          | dynamic =>
              obtain rfl := Except.ok.inj hfound
              exact ⟨by simp [settle], fun other hmem => hall other (by simpa using hmem)⟩
          | expression =>
              obtain rfl := Except.ok.inj hfound
              exact ⟨by simp [settle], fun other hmem => hall other (by simpa using hmem)⟩

/-- Static placeholders that are bound before are bound as they would be now. -/
theorem concat_settleAll
    (bound : ∀ inner, .span .static inner ∈ ps → ∃ v, staticValue? config inner = some v) :
    concat (mode.binder ⟨config, args, artifact⟩) (settleAll config ps) =
      concat (mode.binder ⟨config, args, artifact⟩) ps := by
  induction ps with
  | nil => rfl
  | cons p rest ih =>
      have hrest := ih fun inner hmem => bound inner (List.mem_cons_of_mem p hmem)
      rw [settleAll_cons]
      cases p with
      | char c =>
          rw [settle_char, List.singleton_append, concat, concat, hrest]
      | span kind inner =>
          cases kind with
          | static =>
              obtain ⟨v, hv⟩ := bound inner List.mem_cons_self
              rw [settle_static, concat_chars, hrest, concat, binder_static hv, ok_bind]
              simp only [staticText, hv, Option.getD_some]
              cases concat (mode.binder ⟨config, args, artifact⟩) rest <;> rfl
          | dynamic => rw [settle_dynamic, List.singleton_append, concat, concat, hrest]
          | expression => rw [settle_expression, List.singleton_append, concat, concat, hrest]

/-- All static placeholders are replaced by text that is there and opens nothing. -/
def Harmless (config : StaticConfig) (ps : List Piece) : Prop :=
  ∀ inner, .span .static inner ∈ ps →
    staticText config inner ≠ [] ∧ ∀ c ∈ staticText config inner, ¬ Opens c

theorem Harmless.tail {p : Piece} (h : Harmless config (p :: ps)) : Harmless config ps :=
  fun inner hmem => h inner (List.mem_cons_of_mem p hmem)

/-- No brace comes to stand where there was none. -/
theorem head_settleAll (harmless : Harmless config ps)
    (h : (join (settleAll config ps)).head? = some '\x7b') : (join ps).head? = some '\x7b' := by
  cases ps with
  | nil => exact h
  | cons p rest =>
      cases p with
      | char c => exact h
      | span kind inner =>
          cases kind with
          | static => rfl
          | dynamic => exact h
          | expression => exact h

theorem legible_append {cs : List Char} (inert : ∀ c ∈ cs, ¬ Opens c) (h : Legible ps) :
    Legible (cs.map char ++ ps) := by
  induction cs with
  | nil => exact h
  | cons c cs ih =>
      obtain ⟨hc, hcs⟩ := List.forall_mem_cons.1 inert
      exact .char (opening?_eq_none_iff.2 fun ⟨hopens, _⟩ => hc hopens) (ih hcs)

/-- Binding static placeholders neither makes an opener nor breaks one. -/
theorem legible_settleAll (legible : Legible ps) (harmless : Harmless config ps) :
    Legible (settleAll config ps) := by
  induction ps with
  | nil => exact .nil
  | cons p rest ih =>
      cases p with
      | char c =>
          obtain ⟨hopen, hrest⟩ := legible_char.1 legible
          rw [settleAll_cons, settle_char, List.singleton_append]
          refine .char ?_ (ih hrest harmless.tail)
          rw [opening?_eq_none_iff] at hopen ⊢
          exact fun ⟨hopens, hhead⟩ => hopen ⟨hopens, head_settleAll harmless.tail hhead⟩
      | span kind inner =>
          obtain ⟨hspan, hbody, hrest⟩ := legible_span.1 legible
          have hsettled := ih hrest harmless.tail
          rw [settleAll_cons]
          cases kind with
          | static =>
              have hinert : ∀ c ∈ staticText config inner, ¬ Opens c :=
                (harmless inner List.mem_cons_self).2
              rw [settle_static]
              exact legible_append hinert hsettled
          | dynamic =>
              rw [settle_dynamic, List.singleton_append]
              exact .span hspan hbody hsettled
          | expression =>
              rw [settle_expression, List.singleton_append]
              exact .span hspan hbody hsettled

/-- A text becomes a single placeholder only if it was one. -/
theorem settleAll_eq_singleton (harmless : Harmless config ps) {kind : Kind} {inner : List Char}
    (h : settleAll config ps = [.span kind inner]) : ps = [.span kind inner] := by
  have hnil : ∀ qs, Harmless config qs → settleAll config qs = [] → qs = [] := by
    intro qs hqs hempty
    cases qs with
    | nil => rfl
    | cons q qs =>
        obtain ⟨hq, -⟩ := List.append_eq_nil_iff.1 hempty
        rcases q with c | ⟨_ | _ | _, inner⟩
        · exact absurd hq (by simp [settle])
        · exact absurd (List.map_eq_nil_iff.1 hq) (hqs inner List.mem_cons_self).1
        · exact absurd hq (by simp [settle])
        · exact absurd hq (by simp [settle])
  cases ps with
  | nil => exact absurd h (by simp [settleAll])
  | cons p rest =>
      rw [settleAll_cons] at h
      rcases p with c | ⟨_ | _ | _, body⟩
      · exact absurd h (by simp [settle])
      · obtain ⟨hbody, -⟩ := harmless body List.mem_cons_self
        obtain ⟨c, cs, hcs⟩ := List.exists_cons_of_ne_nil hbody
        exact absurd h (by simp [settle, hcs])
      · obtain ⟨hp, hrest⟩ := List.cons_eq_cons.1 h
        rw [hp, hnil rest harmless.tail hrest]
      · obtain ⟨hp, hrest⟩ := List.cons_eq_cons.1 h
        rw [hp, hnil rest harmless.tail hrest]

theorem mem_segments_of_span {total : Nat} {collected : List Char} {kind : Kind}
    {inner : List Char} (h : .span kind inner ∈ ps) :
    ∃ position, .placeholder (placeholder kind inner position) ∈ segments total collected ps := by
  induction ps generalizing collected with
  | nil => exact absurd h (by simp)
  | cons p rest ih =>
      rcases List.mem_cons.1 h with rfl | hrest
      · exact ⟨_, List.mem_append_right _ List.mem_cons_self⟩
      · cases p with
        | char c => exact ih hrest
        | span _ _ =>
            obtain ⟨position, hmem⟩ := @ih [] hrest
            exact ⟨position, List.mem_append_right _ (List.mem_cons_of_mem _ hmem)⟩

theorem harmless_of_inertIn {s : String} (legible : Legible ps) (hjoin : join ps = s.toList)
    (inert : config.InertIn s)
    (bound : ∀ inner, .span .static inner ∈ ps → ∃ v, staticValue? config inner = some v) :
    Harmless config ps := by
  intro inner hmem
  obtain ⟨v, hv⟩ := bound inner hmem
  obtain ⟨position, hsegment⟩ := @mem_segments_of_span _ (Text.byteLength s.toList) [] _ _ hmem
  have hparse := Segment.parse_eq_ok.2 ⟨ps, legible, hjoin, rfl⟩
  obtain ⟨hne, hopens⟩ := inert _ hparse _ hsegment rfl v hv
  rw [staticText, hv]
  exact ⟨by simpa using hne, hopens⟩

end Piece

variable {config : StaticConfig} {artifact : String} {args loadArgs : Mapping} {mode : RenderMode}

/-- A second pass over a text that is one placeholder. -/
theorem renderText_span_again {kind : Kind} {inner : List Char} {w : Value}
    (legible : Piece.Legible [.span kind inner])
    (h : renderText ⟨config, loadArgs, artifact⟩ .staticOnly
      (String.ofList (Piece.span kind inner).text) = .ok w)
    (inert : ∀ v, Piece.staticValue? config inner = some v → kind = .static → Inert v.stringify) :
    renderValue ⟨config, args, artifact⟩ mode w =
      renderText ⟨config, args, artifact⟩ mode (String.ofList (Piece.span kind inner).text) := by
  rw [renderText, Piece.renderText_span legible] at h
  obtain ⟨found, hfound, rfl⟩ := map_eq_ok.1 h
  cases kind with
  | static =>
      obtain ⟨v, hv, rfl⟩ := Piece.static_of_binder hfound
      have hplain : '\x7b' ∉ v.stringify.toList := fun hmem => (inert v hv rfl).2 _ hmem (.inl rfl)
      rw [Option.getD_some, renderValue_plain hplain, renderText, Piece.renderText_span legible,
        Piece.binder_static hv]
      rfl
  | dynamic =>
      obtain rfl := Except.ok.inj hfound
      rfl
  | expression =>
      obtain rfl := Except.ok.inj hfound
      rfl

/-- A pass that binds static placeholders makes a text of any text that is not one placeholder: the
one that is put together from what is left of its pieces. -/
theorem renderText_staticOnly_pieces {ps : List Piece} {w : Value} (legible : Piece.Legible ps)
    (mixed : ∀ kind inner, ps ≠ [.span kind inner])
    (h : renderText ⟨config, loadArgs, artifact⟩ .staticOnly (String.ofList (Piece.join ps)) =
      .ok w) : w = .string (String.ofList (Piece.join (Piece.settleAll config ps))) ∧
        ∀ inner, .span .static inner ∈ ps → ∃ v, Piece.staticValue? config inner = some v := by
  have positionless := RenderMode.staticOnly.binder_positionless ⟨config, loadArgs, artifact⟩
  rw [renderText, Piece.renderText_pieces positionless legible mixed] at h
  obtain ⟨cs, hcs, rfl⟩ := map_eq_ok.1 h
  obtain ⟨rfl, bound⟩ := Piece.concat_staticOnly hcs
  exact ⟨rfl, bound⟩

/-- A second pass over a text. -/
theorem renderText_again {s : String} {w : Value}
    (h : renderText ⟨config, loadArgs, artifact⟩ .staticOnly s = .ok w)
    (inert : config.InertIn s) :
    renderValue ⟨config, args, artifact⟩ mode w =
      renderText ⟨config, args, artifact⟩ mode s := by
  obtain ⟨found, hparse, -⟩ := bind_eq_ok.1 h
  obtain ⟨ps, legible, hjoin, -⟩ := Segment.parse_eq_ok.1 hparse
  have hs : String.ofList (Piece.join ps) = s := by rw [hjoin, String.ofList_toList]
  -- A single placeholder becomes its value as it is, so its text is not put together from pieces.
  by_cases single : ∃ kind inner, ps = [.span kind inner]
  · obtain ⟨kind, inner, rfl⟩ := single
    rw [← hs, Piece.join_cons, Piece.join_nil, List.append_nil] at h ⊢
    apply renderText_span_again legible h
    intro v hv hkind
    subst hkind
    obtain ⟨position, hmem⟩ := @Piece.mem_segments_of_span [.span .static inner]
      (Text.byteLength s.toList) [] .static inner List.mem_cons_self
    exact inert _ (Segment.parse_eq_ok.2 ⟨_, legible, hjoin, rfl⟩) _ hmem rfl v hv
  · have mixed : ∀ kind inner, ps ≠ [.span kind inner] :=
      fun kind inner heq => single ⟨kind, inner, heq⟩
    have second := mode.binder_positionless ⟨config, args, artifact⟩
    rw [← hs] at h
    obtain ⟨rfl, bound⟩ := renderText_staticOnly_pieces legible mixed h
    have harmless := Piece.harmless_of_inertIn legible hjoin inert bound
    have settled := Piece.legible_settleAll legible harmless
    have mixed' : ∀ kind inner, Piece.settleAll config ps ≠ [.span kind inner] :=
      fun kind inner heq => mixed kind inner (Piece.settleAll_eq_singleton harmless heq)
    calc renderText ⟨config, args, artifact⟩ mode
          (String.ofList (Piece.join (Piece.settleAll config ps)))
        = (Piece.concat (mode.binder ⟨config, args, artifact⟩) (Piece.settleAll config ps)).map
            fun cs => .string (String.ofList cs) := Piece.renderText_pieces second settled mixed'
      _ = (Piece.concat (mode.binder ⟨config, args, artifact⟩) ps).map
            fun cs => .string (String.ofList cs) := by rw [Piece.concat_settleAll bound]
      _ = renderText ⟨config, args, artifact⟩ mode (String.ofList (Piece.join ps)) :=
            (Piece.renderText_pieces second legible mixed).symm
      _ = renderText ⟨config, args, artifact⟩ mode s := by rw [hs]

mutual

theorem renderValue_twice : ∀ v w : Value,
    renderValue ⟨config, loadArgs, artifact⟩ .staticOnly v = .ok w →
    (∀ s, v.Holds s → config.InertIn s) →
    renderValue ⟨config, args, artifact⟩ mode w = renderValue ⟨config, args, artifact⟩ mode v
  | .string s, w, h, inert => renderText_again h (inert s .text)
  | .list items, w, h, inert => by
      obtain ⟨out, hout, h⟩ := bind_eq_ok.1 h
      obtain rfl := Except.ok.inj h
      have hitems := renderItems_twice items out hout fun v hv s hs => inert s (.item hv hs)
      rw [renderValue, renderValue, hitems]
  | .mapping fields, w, h, inert => by
      obtain ⟨out, hout, h⟩ := bind_eq_ok.1 h
      obtain rfl := Except.ok.inj h
      have hfields := renderFields_twice fields out hout
        fun key v hv s hs => inert s (.field hv hs)
      rw [renderValue, renderValue, hfields]
  | .null, w, h, _ => by obtain rfl := Except.ok.inj h; rfl
  | .bool _, w, h, _ => by obtain rfl := Except.ok.inj h; rfl
  | .int _, w, h, _ => by obtain rfl := Except.ok.inj h; rfl
  | .float _, w, h, _ => by obtain rfl := Except.ok.inj h; rfl
  termination_by structural v => v

theorem renderItems_twice : ∀ items out : List Value,
    renderItems ⟨config, loadArgs, artifact⟩ .staticOnly items = .ok out →
    (∀ v ∈ items, ∀ s, v.Holds s → config.InertIn s) →
    renderItems ⟨config, args, artifact⟩ mode out = renderItems ⟨config, args, artifact⟩ mode items
  | [], out, h, _ => by obtain rfl := Except.ok.inj h; rfl
  | v :: rest, out, h, inert => by
      obtain ⟨hv, hrest⟩ := List.forall_mem_cons.1 inert
      obtain ⟨w, hw, h⟩ := bind_eq_ok.1 h
      obtain ⟨others, hothers, h⟩ := bind_eq_ok.1 h
      obtain rfl := Except.ok.inj h
      rw [renderItems, renderItems, renderValue_twice v w hw hv,
        renderItems_twice rest others hothers hrest]
  termination_by structural items => items

theorem renderFields_twice : ∀ fields out : List (String × Value),
    renderFields ⟨config, loadArgs, artifact⟩ .staticOnly fields = .ok out →
    (∀ key v, (key, v) ∈ fields → ∀ s, v.Holds s → config.InertIn s) →
    renderFields ⟨config, args, artifact⟩ mode out =
      renderFields ⟨config, args, artifact⟩ mode fields
  | [], out, h, _ => by obtain rfl := Except.ok.inj h; rfl
  | (key, v) :: rest, out, h, inert => by
      obtain ⟨w, hw, h⟩ := bind_eq_ok.1 h
      obtain ⟨others, hothers, h⟩ := bind_eq_ok.1 h
      obtain rfl := Except.ok.inj h
      rw [renderFields, renderFields, renderValue_twice v w hw (inert key v List.mem_cons_self),
        renderFields_twice rest others hothers fun k u hu => inert k u (List.mem_cons_of_mem _ hu)]
  termination_by structural fields => fields

end

/-- What is rendered at load can be rendered again as if it had not been, in any mode and with any
arguments. -/
theorem renderValue_of_staticOnly {v w : Value}
    (h : renderValue ⟨config, loadArgs, artifact⟩ .staticOnly v = .ok w)
    (inert : ∀ s, v.Holds s → config.InertIn s) :
    renderValue ⟨config, args, artifact⟩ mode w = renderValue ⟨config, args, artifact⟩ mode v :=
  renderValue_twice v w h inert

def siteConfig : StaticConfig :=
  ⟨[("root", .string "data"), ("rows", .list [.int 1, .null])], []⟩

/-- A static placeholder within a text, and another one that is a text by itself. -/
def siteValue : Value :=
  .mapping [("path", .list [.string "\x7b\x7b root \x7d\x7d/!\x7bname\x7d"]),
    ("rows", .string "\x7b\x7brows\x7d\x7d")]

theorem parse_sitePath : Segment.parse "\x7b\x7b root \x7d\x7d/!\x7bname\x7d" =
    .ok [.placeholder ⟨.static, "root", "\x7b\x7b root \x7d\x7d", 0⟩, .literal "/",
      .placeholder ⟨.dynamic, "name", "!\x7bname\x7d", 11⟩] := by
  have h : Segment.ofChars "\x7b\x7b root \x7d\x7d/!\x7bname\x7d".toList =
      .ok [.placeholder ⟨.static, "root", "\x7b\x7b root \x7d\x7d", 0⟩, .literal "/",
        .placeholder ⟨.dynamic, "name", "!\x7bname\x7d", 11⟩] := by
    decide +kernel
  rw [Segment.parse, h]

theorem parse_siteRows : Segment.parse "\x7b\x7brows\x7d\x7d" =
    .ok [.placeholder ⟨.static, "rows", "\x7b\x7brows\x7d\x7d", 0⟩] := by
  have h : Segment.ofChars "\x7b\x7brows\x7d\x7d".toList =
      .ok [.placeholder ⟨.static, "rows", "\x7b\x7brows\x7d\x7d", 0⟩] := by
    decide +kernel
  rw [Segment.parse, h]

theorem inertIn_siteConfig {s : String} (hs : siteValue.Holds s) : siteConfig.InertIn s := by
  have htexts : s = "\x7b\x7b root \x7d\x7d/!\x7bname\x7d" ∨ s = "\x7b\x7brows\x7d\x7d" := by
    rw [siteValue] at hs
    cases hs with
    | field hmem hs =>
        simp only [List.mem_cons, List.not_mem_nil, Prod.mk.injEq, or_false] at hmem
        obtain ⟨rfl, rfl⟩ | ⟨rfl, rfl⟩ := hmem
        · cases hs with
          | item hmem hs =>
              obtain rfl := List.mem_singleton.1 hmem
              cases hs
              exact .inl rfl
        · cases hs
          exact .inr rfl
  intro found hfound p hp hstatic v hv
  rcases htexts with rfl | rfl
  · obtain rfl := Except.ok.inj (parse_sitePath.symm.trans hfound)
    have hvalue : siteConfig.get? "root" = some (.string "data") := rfl
    obtain rfl | rfl : p = _ ∨ p = _ := by simpa using hp
    · obtain rfl := Option.some.inj (hvalue.symm.trans hv)
      exact ⟨by decide, by simp [Value.stringify, Opens]⟩
    · exact absurd hstatic (by simp)
  · obtain rfl := Except.ok.inj (parse_siteRows.symm.trans hfound)
    have hvalue : siteConfig.get? "rows" = some (.list [.int 1, .null]) := rfl
    have htext : (Value.list [.int 1, .null]).stringify = "[1,null]" := by decide +kernel
    obtain rfl : p = _ := by simpa using hp
    obtain rfl := Option.some.inj (hvalue.symm.trans hv)
    rw [htext]
    exact ⟨by decide, by simp [Opens]⟩

theorem renderValue_of_staticOnly_site :
    renderValue ⟨siteConfig, [("name", .string "x")], "site"⟩ (.call true)
        (.mapping [("path", .list [.string "data/!\x7bname\x7d"]),
          ("rows", .list [.int 1, .null])]) =
      renderValue ⟨siteConfig, [("name", .string "x")], "site"⟩ (.call true) siteValue := by
  have hpath : renderText ⟨siteConfig, [], "site"⟩ .staticOnly
      "\x7b\x7b root \x7d\x7d/!\x7bname\x7d" = .ok (.string "data/!\x7bname\x7d") := by
    rw [renderText, Expression.renderText, parse_sitePath]
    rfl
  have hrows : renderText ⟨siteConfig, [], "site"⟩ .staticOnly "\x7b\x7brows\x7d\x7d" =
      .ok (.list [.int 1, .null]) := by
    rw [renderText, Expression.renderText, parse_siteRows]
    rfl
  have hload : renderValue ⟨siteConfig, [], "site"⟩ .staticOnly siteValue =
      .ok (.mapping [("path", .list [.string "data/!\x7bname\x7d"]),
        ("rows", .list [.int 1, .null])]) := by
    simp only [siteValue, renderValue, renderFields, renderItems, hpath, hrows]
    rfl
  exact renderValue_of_staticOnly hload fun _ hs => inertIn_siteConfig hs

end ArtifactFlow
